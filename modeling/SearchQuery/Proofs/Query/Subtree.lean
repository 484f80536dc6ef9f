import SearchQuery.Proofs.Query.Context
import SearchQuery.Proofs.Query.RoundTrip
import SearchQuery.Proofs.Tree.Leaf

/-!
# The text of a subtree

The expressions, operands, filters and identifiers in the tree of a query are queries themselves.
Their texts, read alone, have the values that the subtrees have in the tree.

## Main definitions

* `Query.MeansItsText` — the text of the tree is a query with the value of the tree.

Main statement: `Query.parse_text_of_descend`.
-/

namespace SearchQuery

open Recognizer Text

namespace Query

variable {σ : Type} {note : Failure → σ → σ} {t : ParseTree} {c : Cursor}

/-- The text of the tree is a query, and it has the value of the tree. -/
def MeansItsText (t : ParseTree) : Prop :=
  (∃ root, ParseTree.ofQuery t.text = .ok root) ∧ parse t.text = semantics.eval t

/-! ## Trees that stand alone -/

theorem meansItsText_of_finds {cs : List Char} {q : Query}
    (htext : t.start.rest = cs ++ t.stop.rest) (hvalue : semantics.eval t = .ok q)
    (h : Finds silent.logicalExp cs [] q) : MeansItsText t := by
  have hread : parse t.text = .ok q := by
    refine Finds.parse ?_
    rwa [ParseTree.text, Cursor.upTo_of_rest htext, String.toList_ofList]
  exact ⟨exists_ofQuery_of_parse hread, hread.trans hvalue.symm⟩

theorem meansItsText_of_logicalExp (h : (silent.logicalExp t.start).found = some t) :
    MeansItsText t := by
  obtain ⟨us, q, hus, hq, hfound⟩ := exists_found_logicalExp h
  exact meansItsText_of_finds hus hq (hfound.finds_expression (takesPlace_nil us _))

theorem meansItsText_of_priExp (h : (silent.priExp t.start).found = some t) : MeansItsText t := by
  obtain ⟨us, q, hus, hq, hfound⟩ := exists_found_priExp h
  have hfinds := hfound.finds_operand (takesPlace_nil us _)
  exact meansItsText_of_finds hus hq (finds_alone hfinds afterExp_nil)

theorem IsAtom.meansItsText (h : IsAtom c t) : MeansItsText t := by
  obtain ⟨rfl, cs, q, hatom, hrest, hq⟩ := h
  have hfinds := (hatom.replaces (replaces_nil _)).finds nofun
  exact meansItsText_of_finds hrest hq (finds_alone hfinds afterExp_nil)

/-- A node with one child has the text and the value of the child. -/
theorem MeansItsText.only {rule : Rule} (h : rule ∈ [.exp, .logicalExp, .priExp, .spacedString])
    (ht : MeansItsText t) : MeansItsText (.node rule t []) := by
  rw [MeansItsText, eval_only h]
  exact ht

/-! ## Trees inside a tree -/

/-- If the tree is an expression, an operand, a filter or an identifier, it means its text. -/
def Understood (t : ParseTree) : Prop :=
  t.rule.isSyntactic ∨ t.rule = .ident → MeansItsText t

theorem MeansItsText.understood (h : MeansItsText t) : Understood t := fun _ => h

/-- Other trees promise nothing about their texts. -/
theorem understood_of_rule (h : t.rule ∈ [.spaced, .spacedString, .spaces, .terminal]) :
    Understood t := by
  intro hrule
  simp only [List.mem_cons, List.not_mem_nil, or_false] at h
  rcases h with h | h | h | h <;> rw [h] at hrule <;> exact absurd hrule (by decide)

theorem literal_yields_understood (s : String) (c : Cursor) :
    (literal note s c).Yields (·.Everywhere Understood) := by
  unfold literal
  split
  · exact .pure (ParseTree.everywhere_leaf (understood_of_rule (by simp [ParseTree.leaf])))
  · exact .failAfter _

theorem everywhere_of_isWord_leaf {d : Cursor} (h : IsWord c (.leaf .ident c d)) :
    (ParseTree.leaf .ident c d).Everywhere Understood :=
  ParseTree.everywhere_leaf h.isAtom.meansItsText.understood

theorem ident_yields_understood (c : Cursor) :
    (ident note c).Yields (·.Everywhere Understood) := by
  unfold ident
  split
  · next h => exact .pure (everywhere_of_isWord_leaf (isWord_of_word? h))
  · exact .failAfter _

/-- A node of several trees, if it is understood itself. -/
theorem everywhere_node {rule : Rule} {first : ParseTree} {others : List ParseTree}
    (h : Understood (.node rule first others)) (hfirst : first.Everywhere Understood)
    (hothers : ∀ t ∈ others, t.Everywhere Understood) :
    (ParseTree.node rule first others).Everywhere Understood :=
  ParseTree.everywhere_of_children h (List.forall_mem_cons.2 ⟨hfirst, hothers⟩)

theorem spacedTail_yields_understood (string : ParseTree) :
    string.Everywhere Understood →
      (spacedTail note string).Yields (·.Everywhere Understood) := by
  fun_induction spacedTail note string with
  | case1 string gap d hword ih =>
    intro h
    refine ih (everywhere_node (understood_of_rule (by simp [ParseTree.node])) h ?_)
    have hgap : (ParseTree.leaf .spaces string.stop gap).Everywhere Understood :=
      ParseTree.everywhere_leaf (understood_of_rule (by simp [ParseTree.leaf]))
    simpa using ⟨hgap, everywhere_of_isWord_leaf (isWord_of_word? hword)⟩
  | case2 string gap hword => exact fun h => .orElse (.failAfter _) (.pure h)

theorem spacedString_yields_understood (c : Cursor) :
    (spacedString note c).Yields (·.Everywhere Understood) :=
  (ident_yields_understood c).bind fun _ h => spacedTail_yields_understood _ <|
    everywhere_node (understood_of_rule (by simp [ParseTree.node])) h nofun

/-- Everything in a filter. -/
theorem keywordExp_yields_children (c : Cursor) :
    (keywordExp note c).Yields fun t => ∀ child ∈ t.children, child.Everywhere Understood := by
  refine (ident_yields_understood c).bind fun key hkey => .orElse ?_ ?_
  · exact (literal_yields_understood _ _).bind fun opening hopening =>
      (spacedString_yields_understood _).bind fun value hvalue =>
        (literal_yields_understood _ _).bind fun closing hclosing =>
          .pure (by simpa [ParseTree.node] using ⟨hkey, hopening, hvalue, hclosing⟩)
  · exact (literal_yields_understood _ _).bind fun colon hcolon =>
      (ident_yields_understood _).bind fun value hvalue =>
        .pure (by simpa [ParseTree.node] using ⟨hkey, hcolon, hvalue⟩)

theorem keywordExp_yields_understood (c : Cursor) :
    (keywordExp note c).Yields (·.Everywhere Understood) := fun s t ht =>
  ParseTree.everywhere_of_children (keywordExp_yields_atom c s t ht).meansItsText.understood
    (keywordExp_yields_children c s t ht)

/-! ## Expressions -/

def UnderstoodBehind (c : Cursor) : Prop :=
  ∀ d t, d.remaining < c.remaining → (silent.logicalExp d).found = some t →
    t.Everywhere Understood

/-- An operand begins exactly where it is looked for. -/
theorem start_of_priExp (h : (silent.priExp c).found = some t) : t.start = c := by
  rcases exists_of_found_priExp h with h | h | ⟨item, rfl, hitem⟩
  · obtain ⟨first, inner, last, rfl, hfirst, -⟩ := exists_of_found_delimited h
    exact (literal_yields_rest _ _ () _ hfirst).1
  · obtain ⟨first, inner, last, rfl, hfirst, -⟩ := exists_of_found_delimited h
    exact (literal_yields_rest _ _ () _ hfirst).1
  · exact hitem.elim (fun h => (keywordExp_yields_atom c () item h).1)
      fun h => (ident_yields_atom c () item h).1

/-- An expression is read at its own beginning. -/
theorem found_logicalExp_start (h : (silent.logicalExp c).found = some t) :
    (silent.logicalExp t.start).found = some t := by
  have hstart : t.start = c.skipBlanks := by
    obtain ⟨left, hleft, ht⟩ := exists_of_found_logicalExp h
    have := start_of_priExp hleft
    rcases ht with ⟨p, operator, right, rfl, -⟩ | ⟨right, rfl, -⟩ | ⟨rfl, -⟩ <;> exact this
  rw [hstart, logicalExp, skipBlanks_skipBlanks]
  exact h

theorem exp_understood (h : (silent.logicalExp c).found = some t)
    (ht : t.Everywhere Understood) : (ParseTree.node .exp t []).Everywhere Understood := by
  have hmeans : MeansItsText (.node .exp t []) :=
    (meansItsText_of_logicalExp (found_logicalExp_start h)).only (by simp)
  exact everywhere_node hmeans.understood ht nofun

theorem delimited_understood (hin : UnderstoodBehind c) {opening closing : String} {rule : Rule}
    (hlen : 0 < opening.length) (h : (silent.delimited opening closing rule c).found = some t)
    (ht : MeansItsText t) : t.Everywhere Understood := by
  obtain ⟨first, inner, last, rfl, hfirst, hinner, hlast⟩ := exists_of_found_delimited h
  have hlt := literal_yields _ _ () _ hfirst
  have hexp := exp_understood hinner (hin _ inner (by omega) hinner)
  refine everywhere_node ht.understood (literal_yields_understood _ _ () _ hfirst) ?_
  simpa using ⟨hexp, literal_yields_understood _ _ () _ hlast⟩

theorem priExp_understood (hin : UnderstoodBehind c) (h : (silent.priExp c).found = some t) :
    t.Everywhere Understood := by
  have ht : MeansItsText t := by
    obtain rfl := start_of_priExp h
    exact meansItsText_of_priExp h
  rcases exists_of_found_priExp h with h | h | ⟨item, rfl, hitem⟩
  · exact delimited_understood hin (by decide) h ht
  · exact delimited_understood hin (by decide) h ht
  · refine everywhere_node ht.understood ?_ nofun
    exact hitem.elim (keywordExp_yields_understood c () item) (ident_yields_understood c () item)

/-- All trees in an expression that is read are understood. -/
theorem logicalExp_understood (h : (silent.logicalExp c).found = some t) :
    t.Everywhere Understood := by
  induction hn : c.remaining using Nat.strongRecOn generalizing c t with
  | ind n ih =>
    subst hn
    have ht := meansItsText_of_logicalExp (found_logicalExp_start h)
    obtain ⟨left, hleft, hform⟩ := exists_of_found_logicalExp h
    have hskip := Cursor.remaining_skipBlanks_le c
    have hlt := priExp_yields (afresh_advances _) _ () _ hleft
    have hoperand := priExp_understood
      (fun d t hd ht => ih d.remaining (Nat.lt_of_lt_of_le hd hskip) ht rfl) hleft
    rcases hform with ⟨p, operator, right, rfl, hoperator, hright⟩ | ⟨right, rfl, hright, -⟩ |
      ⟨rfl, -⟩
    · have hle := token_yields _ _ () _ hoperator
      have hexp := ih operator.stop.remaining (by omega) hright rfl
      refine everywhere_node ht.understood hoperand ?_
      simpa using ⟨literal_yields_understood _ _ () _ hoperator, hexp⟩
    · have hexp := ih left.stop.remaining (by omega) hright rfl
      exact everywhere_node ht.understood hoperand (by simpa using hexp)
    · exact everywhere_node ht.understood hoperand nofun

/-- Every expression, operand, filter and identifier in the tree of a query is a query, and read
alone it has the value that it has in the tree. -/
theorem parse_text_of_descend {s : String} {t n : ParseTree} {path : List Nat}
    (h : ParseTree.ofQuery s = .ok t) (hn : t.descend? path = some n)
    (hrule : n.rule.isSyntactic ∨ n.rule = .ident) :
    (∃ root, ParseTree.ofQuery n.text = .ok root) ∧ parse n.text = semantics.eval n := by
  obtain ⟨hexp, -⟩ := found_whole.1 (ParseTree.ofQuery_eq_ok_iff.1 h)
  rw [Recognizer.exp, Attempt.found_bind, Option.bind_eq_some_iff] at hexp
  obtain ⟨inner, hinner, ht⟩ := hexp
  obtain rfl : ParseTree.node .exp inner [] = t := Option.some.inj ht
  exact exp_understood hinner (logicalExp_understood hinner) path n hn hrule

/-- Words in quotes. The last one is no operator, although another word stands behind the quotes. -/
theorem parse_text_of_descend_quote :
    ∃ t n, ParseTree.ofQuery "\"a OR\" b" = .ok t ∧ t.descend? [0, 0, 1] = some n ∧
      n.rule.isSyntactic ∧ n.text = "a OR" ∧ (∃ root, ParseTree.ofQuery n.text = .ok root) ∧
      parse n.text = semantics.eval n := by
  have hread : ((ParseTree.ofQuery "\"a OR\" b").toOption.bind (·.descend? [0, 0, 1])).map
      (fun n => (n.rule, n.text)) = some (.exp, "a OR") := by decide +kernel
  obtain ⟨n, hnode, hpair⟩ := Option.map_eq_some_iff.1 hread
  obtain ⟨t, hquery, hn⟩ := Option.bind_eq_some_iff.1 hnode
  obtain ⟨hrule, htext⟩ := Prod.mk.inj hpair
  have h := ParseTree.ofQuery_of_toOption hquery
  have hsyntactic : n.rule.isSyntactic := by
    rw [hrule]
    decide
  exact ⟨t, n, h, hn, hsyntactic, htext, parse_text_of_descend h hn (.inl hsyntactic)⟩

end Query

end SearchQuery
