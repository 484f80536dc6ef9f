import SearchQuery.Proofs.Reading.OrderedChoice
import SearchQuery.Proofs.Semantics.Dispatch
import SearchQuery.Proofs.Tree.Row

/-!
# Lossless trees

The tree of a query has an alternative of the grammar at each node, and it keeps the whole text. The
children of a node stand in a row, with blanks between them if the rule is syntactic, so the leaves
take up all characters but blanks, each of them once.

The grammar is read by ordered choice, and what an alternative reads is a row of its items. So one
argument serves all alternatives but those of quoted values, which are read in a loop.

## Main definitions

* `ParseTree.Produced` — the children stand for the items of an alternative.
* `ParseTree.Lossless` — what every node of the tree of a query has to do with the text.

Main statement: `ParseTree.lossless_of_ofQuery`.
-/

namespace SearchQuery

open Recognizer Text

def Category.rules : Category → List Rule
  | ident => [.ident]
  | spaces => [.spaces]
  | k => k.alternatives.map (·.rule)

def Item.Admits : (i : Item) → (t : ParseTree) → Prop
  | literal s, t => t.rule = .terminal ∧ t.text = s
  | category k, t => t.rule ∈ k.rules

/-- What may stand between the children of a node: blanks if the rule is syntactic, else nothing. -/
def Rule.Separates (r : Rule) (gap : List Char) : Prop :=
  if r.isSyntactic then Blanks gap else gap = []

namespace ParseTree

/-- The children stand for the items of an alternative of the rule. -/
def Produced (n : ParseTree) : Prop :=
  ∃ k : Category, ∃ a ∈ k.alternatives, a.rule = n.rule ∧
    List.Forall₂ Item.Admits a.items n.children

/-- The node `n` covers a part of the text `s`, and its children cover the parts that the grammar
gives them. -/
structure Lossless (s : String) (n : ParseTree) : Prop where
  /-- The node begins behind some characters of the text. -/
  place : ∃ front, (Cursor.start s).Leads front n.start
  /-- It ends behind the characters that follow there. -/
  text : n.start.Leads n.text.toList n.stop
  nonempty : n.span.1 < n.span.2
  arity : n.children.length = n.rule.arity
  produced : n.children ≠ [] → n.Produced
  row : n.children ≠ [] → Row n.rule.Separates n.start n.children n.stop
  first : ∀ child ∈ n.children.head?, child.start = n.start
  last : ∀ child ∈ n.children.getLast?, child.stop = n.stop
  /-- An identifier is read to its end. -/
  ident : n.rule = .ident → IsIdentifier n.text.toList ∧ EndsName n.stop.rest
  spaces : n.rule = .spaces → Blanks n.text.toList
  solid : n.rule = .ident ∨ n.rule = .terminal → ∀ x ∈ n.text.toList, isBlank x = false

variable {s : String} {t : ParseTree} {c d : Cursor} {cs : List Char}

theorem toList_text (h : t.start.Leads cs t.stop) : t.text.toList = cs := by
  rw [text, String.toList_ofList, ← h.eq_upTo]

theorem Lossless.within_start {n : ParseTree} (h : n.Lossless s) : n.start.Within s := by
  obtain ⟨front, hfront⟩ := h.place
  exact hfront.within (Cursor.within_start s)

theorem Lossless.within_stop {n : ParseTree} (h : n.Lossless s) : n.stop.Within s :=
  h.text.within h.within_start

theorem separates_nil (r : Rule) : r.Separates [] := by
  unfold Rule.Separates
  split
  · exact blanks_nil
  · rfl

theorem blanks_of_separates {r : Rule} {gap : List Char} (h : r.Separates gap) : Blanks gap := by
  unfold Rule.Separates at h
  split at h
  · exact h
  · exact h ▸ blanks_nil

/-! ## Leaves -/

theorem lossless_leaf {rule : Rule} (hc : c.Within s) (h : c.Leads cs d) (hne : cs ≠ [])
    (harity : rule.arity = 0) (hident : rule = .ident → IsIdentifier cs ∧ EndsName d.rest)
    (hspaces : rule = .spaces → Blanks cs)
    (hsolid : rule = .ident ∨ rule = .terminal → ∀ x ∈ cs, isBlank x = false) :
    (leaf rule c d).Everywhere (Lossless s) := by
  have htext : (leaf rule c d).text.toList = cs := toList_text (t := leaf rule c d) h
  refine everywhere_leaf ⟨hc.exists_leads, ?_, h.offset_lt hne, harity.symm, nofun, nofun, nofun,
    nofun, ?_, ?_, ?_⟩
  all_goals rwa [htext]

/-! ## Items -/

theorem admits_ident (c d : Cursor) : Item.Admits (.category .ident) (leaf .ident c d) :=
  List.mem_singleton.2 rfl

theorem admits_spaces (c d : Cursor) : Item.Admits (.category .spaces) (leaf .spaces c d) :=
  List.mem_singleton.2 rfl

/-- At `c`, blanks apart, stands a lossless tree for the item `i`. -/
structure Fits (s : String) (i : Item) (c : Cursor) (t : ParseTree) : Prop where
  admits : i.Admits t
  start : ∃ gap, Blanks gap ∧ c.Leads gap t.start
  lossless : t.Everywhere (Lossless s)

/-- The fixed texts of the grammar hold no blanks. -/
theorem not_isBlank_of_literal {k : Category} {a : Alternative} (ha : a ∈ k.alternatives)
    {l : String} (hl : .literal l ∈ a.items) : ∀ x ∈ l.toList, isBlank x = false := by
  have hitems : ∀ a ∈ k.alternatives, ∀ i ∈ a.items, ∀ l, i = .literal l →
      ∀ x ∈ l.toList, isBlank x = false := by
    cases k <;> simp [Category.alternatives] <;> decide
  exact hitems a ha _ hl l rfl

theorem fits_literal {l : String} (hc : c.Within s) (hne : l.toList ≠ [])
    (hsolid : ∀ x ∈ l.toList, isBlank x = false)
    (h : Reading.silent.item c (.literal l) = some t) : Fits s (.literal l) c t := by
  obtain ⟨d, hd, rfl⟩ := Option.map_eq_some_iff.1 h
  obtain ⟨hliteral, rfl⟩ := Cursor.literal?_eq_some_iff.1 hd
  have hleads := c.leads_advance l.length
  rw [← String.length_toList, ← List.prefix_iff_eq_take.1 hliteral, String.length_toList] at hleads
  refine ⟨⟨rfl, ?_⟩, ⟨[], blanks_nil, c.leads_self⟩,
    lossless_leaf hc hleads hne rfl nofun nofun fun _ => hsolid⟩
  exact String.toList_injective (toList_text (t := leaf .terminal c _) hleads)

theorem leads_word (h : c.word? = some d) :
    ∃ cs, IsIdentifier cs ∧ c.Leads cs d ∧ EndsName d.rest := by
  obtain ⟨⟨x, xs, hx, hletter⟩, rfl⟩ := Cursor.word?_eq_some_iff.1 h
  have hleads := c.leads_skipWhile isNameChar
  refine ⟨_, ⟨x, xs.takeWhile isNameChar, ?_, hletter, ?_⟩, hleads, ?_⟩
  · rw [hx, List.takeWhile_cons_of_pos (isNameChar_of_isLetter hletter)]
  · exact List.all_eq_true.2 fun _ => List.mem_takeWhile_imp
  · rw [Cursor.rest_skipWhile]
    exact endsName_dropWhile c.rest

theorem lossless_word (hc : c.Within s) (h : c.word? = some d) :
    (leaf .ident c d).Everywhere (Lossless s) := by
  obtain ⟨cs, hcs, hleads, hends⟩ := leads_word h
  refine lossless_leaf hc hleads ?_ rfl (fun _ => ⟨hcs, hends⟩) nofun fun _ x hx => ?_
  · obtain ⟨x, xs, rfl, -⟩ := hcs
    simp
  · exact not_isBlank_of_isNameChar (hcs.isNameChar_of_mem hx)

/-! ## Rows of items -/

/-- A node is lossless if its children are, one after another. -/
theorem lossless_node {rule : Rule} {first : ParseTree} {others : List ParseTree}
    (hfirst : first.Everywhere (Lossless s)) (hothers : ∀ t ∈ others, t.Everywhere (Lossless s))
    (hproduced : (node rule first others).Produced)
    (hrow : Row rule.Separates first.stop others (others.getLastD first).stop) :
    (node rule first others).Everywhere (Lossless s) := by
  have harity : others.length + 1 = rule.arity := by
    obtain ⟨k, a, ha, rfl, hitems⟩ := hproduced
    exact hitems.length_eq.symm.trans (Category.length_items k a ha)
  have hleaf {r : Rule} (hr : r.arity = 0) : rule ≠ r := by
    rintro rfl
    omega
  obtain ⟨cs, hcs⟩ := hrow.exists_leads
  have hleads := hfirst.here.text.trans hcs
  refine everywhere_of_children ?_ (List.forall_mem_cons.2 ⟨hfirst, hothers⟩)
  exact {
    place := hfirst.here.place
    text := (toList_text (t := node rule first others) hleads).symm ▸ hleads
    nonempty := Nat.lt_of_lt_of_le hfirst.here.nonempty hcs.offset_le
    arity := harity
    produced _ := hproduced
    row _ := .cons (separates_nil rule) (Cursor.leads_self _) hfirst.here.text hrow
    first := by simp [node]
    last := by
      intro child hchild
      rw [node, List.getLast?_cons, Option.mem_some_iff] at hchild
      rw [stop_node, List.getLastD_eq_getLast?, hchild]
    ident h := absurd h (hleaf rfl)
    spaces h := absurd h (hleaf rfl)
    solid h := absurd h (not_or.2 ⟨hleaf rfl, hleaf rfl⟩) }

/-- The items behind a tree stand for a row behind it. -/
theorem row_of_items {r : Rule} (hr : r.isSyntactic) {is : List Item} {us : List ParseTree}
    (hread : ∀ i ∈ is, ∀ d, d.Within s → ∀ u ∈ us, Reading.silent.item d i = some u →
      Fits s i d u)
    (ht : t.stop.Within s) (h : Reading.silent.items r t.stop is = some us) :
    List.Forall₂ Item.Admits is us ∧ (∀ u ∈ us, u.Everywhere (Lossless s)) ∧
      Row Blanks t.stop us (us.getLastD t).stop := by
  induction is generalizing t us with
  | nil =>
    obtain rfl := Option.some.inj h
    exact ⟨.nil, nofun, .nil blanks_nil (Cursor.leads_self _)⟩
  | cons i is ih =>
    rw [Reading.items_cons, Reading.itemPlace_of_isSyntactic hr] at h
    obtain ⟨u, hu, h⟩ := Option.bind_eq_some_iff.1 h
    obtain ⟨vs, hvs, rfl⟩ := Option.map_eq_some_iff.1 h
    obtain ⟨gap, hgap, hskip⟩ := t.stop.leads_skipBlanks
    have hfits := hread i List.mem_cons_self _ (hskip.within ht) u List.mem_cons_self hu
    obtain ⟨gap', hgap', hstart⟩ := hfits.start
    have hhere := hfits.lossless.here
    obtain ⟨hadmits, hlossless, hrow⟩ := ih
      (fun j hj d hd v hv => hread j (List.mem_cons_of_mem i hj) d hd v (List.mem_cons_of_mem u hv))
      hhere.within_stop hvs
    refine ⟨.cons hfits.admits hadmits, List.forall_mem_cons.2 ⟨hfits.lossless, hlossless⟩, ?_⟩
    rw [List.getLastD_cons]
    exact .cons (List.forall_mem_append.2 ⟨hgap, hgap'⟩) (hskip.trans hstart) hhere.text hrow

/-- A row of the items of a syntactic alternative is a lossless node. -/
theorem fits_alternative {k : Category} {a : Alternative} (ha : a ∈ k.alternatives)
    (hr : a.rule.isSyntactic) (hc : c.Within s) (h : Reading.silent.alternative c a = some t)
    (hread : ∀ i ∈ a.items, ∀ d, d.Within s → ∀ u ∈ t.children,
      Reading.silent.item d i = some u → Fits s i d u) :
    (∃ gap, Blanks gap ∧ c.Leads gap t.start) ∧ t.Everywhere (Lossless s) ∧ t.rule = a.rule := by
  obtain ⟨r, _ | ⟨i, is⟩⟩ := a
  · simp [Reading.alternative, Reading.items_nil] at h
  rw [Reading.alternative_cons, Reading.itemPlace_of_isSyntactic hr] at h
  obtain ⟨u, hu, h⟩ := Option.bind_eq_some_iff.1 h
  obtain ⟨us, hus, rfl⟩ := Option.map_eq_some_iff.1 h
  obtain ⟨gap, hgap, hskip⟩ := c.leads_skipBlanks
  have hfits := hread i List.mem_cons_self _ (hskip.within hc) u List.mem_cons_self hu
  obtain ⟨gap', hgap', hstart⟩ := hfits.start
  obtain ⟨hadmits, hlossless, hrow⟩ := row_of_items hr
    (fun j hj d hd v hv => hread j (List.mem_cons_of_mem i hj) d hd v (List.mem_cons_of_mem u hv))
    hfits.lossless.here.within_stop hus
  refine ⟨⟨_, List.forall_mem_append.2 ⟨hgap, hgap'⟩, hskip.trans hstart⟩, ?_, rfl⟩
  refine lossless_node hfits.lossless hlossless ⟨k, _, ha, rfl, .cons hfits.admits hadmits⟩ ?_
  refine hrow.mono fun gap hgap => ?_
  rwa [Rule.Separates, if_pos hr]

/-! ## Quoted values -/

/-- Blanks and one more identifier behind a quoted value. An identifier ended before them, so there
are some. -/
theorem lossless_spaced (ht : t.Everywhere (Lossless s))
    (hrule : t.rule ∈ Category.spacedString.rules) (hends : EndsName t.stop.rest)
    (hd : t.stop.skipBlanks.word? = some d) :
    (node .spaced t [.leaf .spaces t.stop t.stop.skipBlanks,
      .leaf .ident t.stop.skipBlanks d]).Everywhere (Lossless s) := by
  have hwithin := ht.here.within_stop
  obtain ⟨gap, hgap, hskip⟩ := t.stop.leads_skipBlanks
  obtain ⟨word, hword, hleads, -⟩ := leads_word hd
  have hne : gap ≠ [] := by
    rintro rfl
    obtain ⟨x, xs, rfl, hx, -⟩ := hword
    have hname := hends x (by rw [hskip.rest, hleads.rest]; rfl)
    simp [isNameChar_of_isLetter hx] at hname
  have hspaces : (leaf .spaces t.stop t.stop.skipBlanks).Everywhere (Lossless s) :=
    lossless_leaf hwithin hskip hne rfl nofun (fun _ => hgap) nofun
  have hident := lossless_word (hskip.within hwithin) hd
  refine lossless_node ht (by simpa using ⟨hspaces, hident⟩) ?_ ?_
  · have hfurther : List.Forall₂ Item.Admits Reading.further
        [.leaf .spaces t.stop t.stop.skipBlanks, .leaf .ident t.stop.skipBlanks d] :=
      .cons (admits_spaces _ _) (.cons (admits_ident _ _) .nil)
    exact ⟨.spacedString, ⟨.spaced, .category .spacedString :: Reading.further⟩,
      List.mem_cons_self, rfl, .cons hrule hfurther⟩
  · have hnil : Rule.spaced.Separates [] := separates_nil _
    exact .cons hnil (Cursor.leads_self _) hspaces.here.text
      (.cons hnil (Cursor.leads_self _) hident.here.text (.nil hnil (Cursor.leads_self _)))

/-- A quoted value stays lossless when it is extended. -/
theorem lossless_grown {t' : ParseTree} (h : Reading.silent.Grown .spaced Reading.further t t')
    (ht : t.Everywhere (Lossless s)) (hrule : t.rule ∈ Category.spacedString.rules)
    (hends : EndsName t.stop.rest) :
    t'.Everywhere (Lossless s) ∧ t'.rule ∈ Category.spacedString.rules ∧ t'.start = t.start := by
  induction h with
  | stop _ => exact ⟨ht, hrule, rfl⟩
  | @more t t' ts h _ ih =>
    rw [Reading.items_further] at h
    obtain ⟨d, hd, rfl⟩ := Option.map_eq_some_iff.1 h
    obtain ⟨-, -, -, hends'⟩ := leads_word hd
    have hspaced : Rule.spaced ∈ Category.spacedString.rules := by decide
    exact ih (lossless_spaced ht hrule hends hd) hspaced hends'

theorem exists_word? (h : Reading.silent .ident c = some t) :
    ∃ d, c.word? = some d ∧ t = .leaf .ident c d := by
  cases hword : c.word? with
  | none =>
    have hident : Reading.silent .ident c = none := congrArg Attempt.found (ident_of_none _ hword)
    rw [hident] at h
    contradiction
  | some d =>
    have hident : Reading.silent .ident c = some (.leaf .ident c d) :=
      congrArg Attempt.found (ident_of_some _ hword)
    exact ⟨d, rfl, Option.some.inj (h.symm.trans hident)⟩

theorem fits_ident (hc : c.Within s) (h : Reading.silent .ident c = some t) :
    Fits s (.category .ident) c t := by
  obtain ⟨d, hd, rfl⟩ := exists_word? h
  exact ⟨admits_ident c d, ⟨[], blanks_nil, c.leads_self⟩, lossless_word hc hd⟩

theorem fits_spacedString (hc : c.Within s) (h : Reading.silent .spacedString c = some t) :
    Fits s (.category .spacedString) c t := by
  cases hident : Reading.silent .ident c with
  | none =>
    rw [Reading.silent_orderedChoice.spacedString_eq_none c hident] at h
    contradiction
  | some first =>
    obtain ⟨t', ht', hgrown⟩ := Reading.silent_orderedChoice.spacedString c first hident
    obtain rfl := Option.some.inj (h.symm.trans ht')
    obtain ⟨d, hd, rfl⟩ := exists_word? hident
    obtain ⟨-, -, -, hends⟩ := leads_word hd
    have hseed : (node .spacedString (.leaf .ident c d) []).Everywhere (Lossless s) := by
      refine lossless_node (lossless_word hc hd) nofun ?_ (.nil (separates_nil _)
        (Cursor.leads_self _))
      exact ⟨.spacedString, ⟨.spacedString, [.category .ident]⟩, by simp [Category.alternatives],
        rfl, .cons (admits_ident c d) .nil⟩
    have hstring : Rule.spacedString ∈ Category.spacedString.rules := by decide
    obtain ⟨hlossless, hrule, hstart⟩ := lossless_grown hgrown hseed hstring hends
    exact ⟨hrule, ⟨[], blanks_nil, hstart ▸ Cursor.leads_self _⟩, hlossless⟩

/-! ## All categories -/

theorem mem_rules {k : Category} {a : Alternative} (ha : a ∈ k.alternatives) :
    a.rule ∈ k.rules := by
  cases k with
  | ident | spaces => contradiction
  | exp | logicalExp | priExp | keywordExp | spacedString => exact List.mem_map_of_mem ha

/-- Where there is a choice, blanks are skipped, and no item is empty. -/
theorem isSyntactic_of_choice {k : Category} (hk : k ∈ [.exp, .logicalExp, .priExp, .keywordExp]) :
    ∀ a ∈ k.alternatives, a.rule.isSyntactic ∧ ∀ i ∈ a.items, Reading.takesUp i := by
  revert k
  decide

/-- Whatever is read is lossless, with an alternative of its category at the root. -/
theorem fits_of_silent (t : ParseTree) :
    ∀ k ≠ .spaces, ∀ c : Cursor, c.Within s → Reading.silent k c = some t →
      Fits s (.category k) c t := by
  -- An operand is read from where its expression is, so the induction is on the tree and not on the
  -- place.
  induction t with
  | mk rule start stop children ih =>
    intro k hk c hc h
    have hchoice (hk : k ∈ [.exp, .logicalExp, .priExp, .keywordExp]) :
        Fits s (.category k) c ⟨rule, start, stop, children⟩ := by
      rw [Reading.silent_orderedChoice.choice k hk c] at h
      obtain ⟨a, ha, h⟩ := List.exists_of_findSome?_eq_some h
      obtain ⟨hr, htakes⟩ := isSyntactic_of_choice hk a ha
      obtain ⟨hstart, hlossless, hrule⟩ := fits_alternative ha hr hc h fun i hi d hd u hu h => by
        cases i with
        | literal l =>
          have hlen : 0 < l.length := by simpa [Reading.takesUp] using htakes _ hi
          have hne : l.toList ≠ [] := by
            rw [← List.length_pos_iff, String.length_toList]
            exact hlen
          exact fits_literal hd hne (not_isBlank_of_literal ha hi) h
        | category k' =>
          exact ih u hu k' (by simpa [Reading.takesUp] using htakes _ hi) d hd h
      refine ⟨?_, hstart, hlossless⟩
      rw [Item.Admits, hrule]
      exact mem_rules ha
    cases k with
    | exp | logicalExp | priExp | keywordExp => exact hchoice (by simp)
    | spacedString => exact fits_spacedString hc h
    | ident => exact fits_ident hc h
    | spaces => contradiction

/-! ## Whole queries -/

/-- The tree of a query stands at the beginning of the text, and only blanks follow it. -/
theorem fits_of_ofQuery (h : ofQuery s = .ok t) :
    Fits s (.category .exp) (.start s) t ∧ Blanks t.stop.rest := by
  obtain ⟨hexp, hend⟩ := found_whole.1 (ofQuery_eq_ok_iff.1 h)
  obtain ⟨gap, hgap, hskip⟩ := t.stop.leads_skipBlanks
  refine ⟨fits_of_silent t .exp (by decide) _ (Cursor.within_start s) hexp, ?_⟩
  rwa [hskip.rest, List.isEmpty_iff.1 hend, List.append_nil]

theorem rule_of_admits_exp (h : Item.Admits (.category .exp) t) : t.rule = .exp := by
  simpa [Item.Admits, Category.rules, Category.alternatives] using h

/-- The leaves of a lossless tree stand in a row. -/
theorem row_of_lossless (h : t.Everywhere (Lossless s)) : Row Blanks t.start t.leaves t.stop :=
  row_leaves (fun path n hn => (h path n hn).text) fun path n hn hne =>
    ((h path n hn).row hne).mono fun _ => blanks_of_separates

/-- A leaf holds either blanks or none. -/
theorem Lossless.filter_leaf (h : t.Lossless s) (hleaf : t.children = []) :
    t.text.toList.filter (fun x => !isBlank x) =
      if t.rule = .spaces then [] else t.text.toList := by
  have harity := h.arity
  rw [hleaf] at harity
  split
  · next hrule => simpa using h.spaces hrule
  · next hrule =>
    have hrules : t.rule = .ident ∨ t.rule = .terminal := by
      cases hr : t.rule <;> simp_all [Rule.arity]
    simpa using h.solid hrules

theorem filter_leaves (h : t.Everywhere (Lossless s)) :
    (t.leaves.flatMap fun leaf => leaf.text.toList.filter fun x => !isBlank x) =
      (t.leaves.filter (·.rule ≠ .spaces)).flatMap (·.text.toList) := by
  have hleaf := h.of_mem_leaves
  generalize t.leaves = leaves at hleaf ⊢
  induction leaves with
  | nil => rfl
  | cons leaf leaves ih =>
    obtain ⟨hnil, hlossless⟩ := hleaf leaf List.mem_cons_self
    have hrest := ih fun l hl => hleaf l (List.mem_cons_of_mem leaf hl)
    rw [List.flatMap_cons, hlossless.filter_leaf hnil, hrest]
    by_cases hspaces : leaf.rule = .spaces <;> simp [hspaces]

/-- The leaves of the tree of a query stand in a row from the beginning of the text, and only blanks
are left behind them. -/
theorem row_of_ofQuery (h : ofQuery s = .ok t) :
    Row Blanks (.start s) t.leaves t.stop ∧ Blanks t.stop.rest := by
  obtain ⟨⟨-, ⟨gap, hgap, hstart⟩, hlossless⟩, hafter⟩ := fits_of_ofQuery h
  exact ⟨(row_of_lossless hlossless).behind hgap hstart, hafter⟩

/-- Every character that is no blank belongs to exactly one leaf. -/
theorem existsUnique_leaf (h : ofQuery s = .ok t) {front back : List Char} {x : Char}
    (hs : s.toList = front ++ x :: back) (hx : isBlank x = false) :
    ∃! i : Nat, ∃ leaf, t.leaves[i]? = some leaf ∧ leaf.Holds (byteCount front) := by
  obtain ⟨hrow, hafter⟩ := row_of_ofQuery h
  have hleads : (Cursor.start s).Leads front ⟨byteCount front, x :: back⟩ :=
    ⟨hs, (Nat.zero_add _).symm⟩
  refine hrow.existsUnique_holds hleads ?_ rfl hx
  by_contra hlt
  obtain ⟨cs, hcs⟩ := hrow.exists_leads
  obtain ⟨es, -, hes⟩ := hcs.split hleads (Nat.not_lt.1 hlt)
  have hblank := hafter x (by rw [hes.rest]; simp)
  simp [hx] at hblank

/-- The leaves hold all characters but blanks, in order. -/
theorem flatMap_leaves_text (h : ofQuery s = .ok t) :
    (t.leaves.filter (·.rule ≠ .spaces)).flatMap (·.text.toList) =
      s.toList.filter fun x => !isBlank x := by
  obtain ⟨hfits, -⟩ := fits_of_ofQuery h
  obtain ⟨hrow, hafter⟩ := row_of_ofQuery h
  obtain ⟨cs, hcs⟩ := hrow.exists_leads
  have hend : t.stop.rest.filter (fun x => !isBlank x) = [] := by simpa using hafter
  rw [← filter_leaves hfits.lossless, ← hrow.filter_eq hcs, ← List.append_nil (List.filter _ _),
    ← hend, ← List.filter_append, ← hcs.rest]
  rfl

/-- The tree of a query is lossless. Every node is given to its handler with the parts the handler
is made for, whatever the semantics. Outside the root there are blanks only, every other character
belongs to exactly one leaf, and the leaves but for those of blanks make up the text without its
blanks. -/
theorem lossless_of_ofQuery (h : ofQuery s = .ok t) :
    t.Everywhere (Lossless s) ∧
      (∀ (m : Type → Type) [MonadExceptOf QueryError m] (α : Type) (S : Semantics m α),
        t.Everywhere fun n => S.Handles (.ofRule n.rule) (S.parts n) (S.eval n)) ∧
      (t.rule = .exp ∧ ∃ before after, Blanks before ∧ Blanks after ∧
        s.toList = before ++ (t.text.toList ++ after) ∧ t.span.1 = byteCount before) ∧
      (∀ front x back, s.toList = front ++ x :: back → isBlank x = false →
        ∃! i : Nat, ∃ leaf, t.leaves[i]? = some leaf ∧ leaf.Holds (byteCount front)) ∧
      (t.leaves.filter (·.rule ≠ .spaces)).flatMap (·.text.toList) =
        s.toList.filter fun x => !isBlank x := by
  obtain ⟨⟨hadmits, ⟨gap, hgap, hstart⟩, hlossless⟩, hafter⟩ := fits_of_ofQuery h
  have htext := hlossless.here.text
  refine ⟨hlossless, ?_, ⟨rule_of_admits_exp hadmits, gap, t.stop.rest, hgap, hafter, ?_, ?_⟩,
    fun front x back hs hx => existsUnique_leaf h hs hx, flatMap_leaves_text h⟩
  · exact fun m _ α S path n hn => S.handles_eval (hlossless path n hn).arity
  · rw [← htext.rest, ← hstart.rest]
    rfl
  · simpa [Cursor.start, span] using hstart.offset

/-- A letter of two bytes, blanks around the query, and a tab in quotes. The operator begins at the
fourth byte. -/
theorem lossless_of_ofQuery_tab :
    let s := " é OR k:\"v\tw\" "
    ∃ t, ofQuery s = .ok t ∧
      t.leaves.map (·.text) = ["é", "OR", "k", ":\"", "v", "\t", "w", "\""] ∧
      t.Everywhere (Lossless s) ∧
      (∃! i : Nat, ∃ leaf, t.leaves[i]? = some leaf ∧ leaf.Holds 4) ∧
      (t.leaves.filter (·.rule ≠ .spaces)).flatMap (·.text.toList) = "éORk:\"vw\"".toList := by
  intro s
  have hread : (ofQuery s).toOption.map (fun t => t.leaves.map (·.text)) =
      some ["é", "OR", "k", ":\"", "v", "\t", "w", "\""] := by decide +kernel
  obtain ⟨t, hquery, hleaves⟩ := Option.map_eq_some_iff.1 hread
  have h := ofQuery_of_toOption hquery
  obtain ⟨hlossless, -, -, hunique, htext⟩ := lossless_of_ofQuery h
  refine ⟨t, h, hleaves, hlossless, ?_, htext.trans (by decide)⟩
  exact hunique [' ', 'é', ' '] 'O' "R k:\"v\tw\" ".toList (by decide) (by decide)

end ParseTree

end SearchQuery
