import SearchQuery.Proofs.Query.Value

/-!
# Reading expressions

An expression is an operand, and what follows it is read behind an operator, without one, or not at
all. Here are the ways from the parts of an expression to the whole, and back.

Main statements: `Query.finds_alone`, `Query.finds_operator` and `Query.finds_beside` compose an
expression. `Query.exists_of_found_logicalExp` and `Query.exists_of_found_priExp` take a tree apart.
-/

namespace SearchQuery

open Recognizer Text

namespace Query

variable {cs ds ks gap : List Char} {q left right : Query} {c : Cursor}

/-! ## Composition -/

theorem Finds.afterOperand (h : Finds silent.priExp cs ks q) :
    afterOperand (cs ++ ks) = some ks := by
  obtain ⟨t, ht, hrest, -⟩ := h ⟨0, cs ++ ks⟩ rfl
  rw [Text.afterOperand, ht, ← hrest]
  rfl

theorem Finds.afterExp (h : Finds silent.logicalExp cs ks q) : afterExp (cs ++ ks) = some ks := by
  obtain ⟨t, ht, hrest, -⟩ := h ⟨0, cs ++ ks⟩ rfl
  rw [Text.afterExp, ht, ← hrest]
  rfl

/-- Reading a `LogicalExp` is a round of the recursion behind the blanks. -/
theorem logicalExp_eq (c : Cursor) :
    silent.logicalExp c = silent.logicalAlternatives c.skipBlanks :=
  afreshAt_eq _ _

/-- An expression begins with an operand. -/
theorem exists_found_left (h : Finds silent.priExp cs ks q) (hc : c.rest = cs ++ ks) :
    ∃ t, t.stop.rest = ks ∧ semantics.eval t = .ok q ∧ (silent.logicalExp c).found =
      (silent.connected t "AND" .logicalAnd).found.or
        ((silent.connected t "OR" .logicalOr).found.or
          ((silent.joined t).found.or (some (.node .logicalExp t [])))) := by
  obtain ⟨x, xs, hcs, hx⟩ := opens_of_afterOperand h.afterOperand
  have hskip : c.skipBlanks.rest = cs ++ ks := by
    rw [Cursor.rest_skipBlanks, hc, hcs]
    exact afterBlanks_cons_of_not_isBlank (not_isBlank_of_opens hx)
  obtain ⟨t, ht, hrest, hvalue⟩ := h c.skipBlanks hskip
  refine ⟨t, hrest, hvalue, ?_⟩
  rw [logicalExp_eq, logicalAlternatives, Attempt.found_bind, ht, Option.bind_some,
    Attempt.found_orElse, Attempt.found_orElse, Attempt.found_orElse]
  rfl

theorem found_connected_eq_none {t : ParseTree} {op : String} {rule : Rule}
    (h : (afterLiteral op (afterBlanks t.stop.rest)).bind Text.afterExp = none) :
    (silent.connected t op rule).found = none := by
  rwa [← found_connected t op rule, Option.map_eq_none_iff] at h

theorem exists_found_connected {t : ParseTree} {op : String} (rule : Rule)
    (h : Finds silent.logicalExp ds ks q)
    (ht : afterBlanks t.stop.rest = op.toList ++ (ds ++ ks)) :
    ∃ operator right, right.stop.rest = ks ∧ semantics.eval right = .ok q ∧
      (silent.connected t op rule).found = some (.node rule t [operator, right]) := by
  obtain ⟨operator, hoperator, hrest⟩ := exists_found_token ht
  obtain ⟨right, hright, hks, hvalue⟩ := h operator.stop hrest
  refine ⟨operator, right, hks, hvalue, ?_⟩
  rw [connected, Attempt.found_bind, hoperator, Option.bind_some, Attempt.found_bind, hright]
  rfl

/-- Blanks before an expression do not matter. -/
theorem finds_blanks (hgap : Blanks gap) (h : Finds silent.logicalExp cs ks q) :
    Finds silent.logicalExp (gap ++ cs) ks q := by
  induction gap with
  | nil => exact h
  | cons x gap ih =>
    have hx : isBlank x := hgap x List.mem_cons_self
    have hrest := ih fun y hy => hgap y (List.mem_cons_of_mem x hy)
    intro c hc
    have hskip : (c.advance 1).skipBlanks = c.skipBlanks := by
      rw [Cursor.skipBlanks, Cursor.skipWhile, Cursor.advance_advance, Cursor.skipBlanks,
        Cursor.skipWhile, Cursor.rest_advance, hc, List.cons_append, List.cons_append,
        List.takeWhile_cons_of_pos hx, List.length_cons, Nat.add_comm]
      rfl
    have := hrest (c.advance 1) (by rw [Cursor.rest_advance, hc]; rfl)
    rwa [logicalExp, hskip] at this

theorem keyword_eq (p : Connective) : p.keyword = "AND" ∨ p.keyword = "OR" := by
  cases p with
  | and => exact .inl rfl
  | or => exact .inr rfl

theorem afterBlanks_keyword (hgap : Blanks gap) (p : Connective) (cs : List Char) :
    afterBlanks (gap ++ (p.keyword.toList ++ cs)) = p.keyword.toList ++ cs := by
  obtain ⟨x, xs, hp, hx, -⟩ := isIdentifier_operator (keyword_eq p)
  rw [hp]
  exact afterBlanks_letter hgap hx (xs ++ cs)

/-- No operator leads to an expression that could not be read without it. -/
theorem bind_afterExp_eq_none (hks : Text.afterExp ks = none) (p : Connective) :
    (afterLiteral p.keyword (afterBlanks ks)).bind Text.afterExp = none := by
  rw [Option.bind_eq_none_iff]
  intro ds hds
  cases hk : Text.afterExp ds with
  | none => rfl
  | some k =>
    have := afterExp_operator (keyword_eq p) hk
    rw [← afterLiteral_eq_some_iff.1 hds, afterExp_afterBlanks, hks] at this
    contradiction

/-- An operand behind which nothing is read. -/
theorem finds_alone (h : Finds silent.priExp cs ks q) (hks : Text.afterExp ks = none) :
    Finds silent.logicalExp cs ks q := by
  intro c hc
  obtain ⟨t, hrest, hvalue, hfound⟩ := exists_found_left h hc
  have hconnected (p : Connective) (rule : Rule) :
      (silent.connected t p.keyword rule).found = none :=
    found_connected_eq_none (hrest ▸ bind_afterExp_eq_none hks p)
  have hand : (silent.connected t "AND" .logicalAnd).found = none := hconnected .and .logicalAnd
  have hor : (silent.connected t "OR" .logicalOr).found = none := hconnected .or .logicalOr
  have hjoined : (silent.joined t).found = none := by
    have hright := rest_logicalExp silent.note t.stop ()
    rw [hrest, hks, Option.map_eq_none_iff] at hright
    rw [joined, Attempt.found_bind]
    exact congrArg (Option.bind · _) hright
  refine ⟨.node .logicalExp t [], ?_, hrest, ?_⟩
  · rw [hfound, hand, hor, hjoined]
    rfl
  · rw [eval_only (by simp), hvalue]

/-- An operand, an operator and what follows. -/
theorem finds_operator (p : Connective) (hgap : Blanks gap)
    (h : Finds silent.priExp cs (gap ++ (p.keyword.toList ++ (ds ++ ks))) left)
    (h' : Finds silent.logicalExp ds ks right) :
    Finds silent.logicalExp (cs ++ (gap ++ (p.keyword.toList ++ ds))) ks
      (combine p left right) := by
  intro c hc
  obtain ⟨t, hrest, hvalue, hfound⟩ := exists_found_left h (by simpa using hc)
  have ht : afterBlanks t.stop.rest = p.keyword.toList ++ (ds ++ ks) := by
    rw [hrest, afterBlanks_keyword hgap]
  obtain ⟨operator, last, hks, hlast, hconnected⟩ := exists_found_connected p.rule h' ht
  refine ⟨.node p.rule t [operator, last], ?_, hks, eval_operator p hvalue hlast operator⟩
  rw [hfound]
  cases p with
  | and => exact congrArg (Option.or · _) hconnected
  | or =>
    have hand : (silent.connected t "AND" .logicalAnd).found = none := by
      refine found_connected_eq_none ?_
      rw [ht, afterLiteral_of_head (y := 'A') rfl (by simp [Connective.keyword])]
      rfl
    rw [hand, Option.none_or]
    exact congrArg (Option.or · _) hconnected

/-- An operand and what follows without an operator. -/
theorem finds_beside (h : Finds silent.priExp cs (ds ++ ks) left)
    (h' : Finds silent.logicalExp ds ks right)
    (hop : ∀ p : Connective,
      (afterLiteral p.keyword (afterBlanks (ds ++ ks))).bind Text.afterExp = none) :
    Finds silent.logicalExp (cs ++ ds) ks (juxtapose left right) := by
  intro c hc
  obtain ⟨t, hrest, hvalue, hfound⟩ := exists_found_left h (by simpa using hc)
  obtain ⟨last, hlast, hks, hvalue'⟩ := h' t.stop hrest
  have hconnected (p : Connective) (rule : Rule) :
      (silent.connected t p.keyword rule).found = none :=
    found_connected_eq_none (hrest ▸ hop p)
  have hand : (silent.connected t "AND" .logicalAnd).found = none := hconnected .and .logicalAnd
  have hor : (silent.connected t "OR" .logicalOr).found = none := hconnected .or .logicalOr
  refine ⟨.node .logicalJoin t [last], ?_, hks, eval_join hvalue hvalue'⟩
  rw [hfound, hand, hor, joined, Attempt.found_bind, hlast]
  rfl

/-! ## Decomposition -/

variable {t : ParseTree}

theorem exists_of_found_connected {left : ParseTree} {op : String} {rule : Rule}
    (h : (silent.connected left op rule).found = some t) :
    ∃ operator right, t = .node rule left [operator, right] ∧
      (token silent.note op left.stop).found = some operator ∧
      (silent.logicalExp operator.stop).found = some right := by
  simp only [connected, Attempt.found_bind, Attempt.found_pure, Option.bind_eq_some_iff,
    Option.some.injEq] at h
  obtain ⟨operator, hoperator, right, hright, rfl⟩ := h
  exact ⟨operator, right, rfl, hoperator, hright⟩

/-- An expression is two operands under an operator, two operands without one, or one operand. -/
theorem exists_of_found_logicalExp (h : (silent.logicalExp c).found = some t) :
    ∃ left, (silent.priExp c.skipBlanks).found = some left ∧
      ((∃ (p : Connective) (operator right : ParseTree), t = .node p.rule left [operator, right] ∧
          (token silent.note p.keyword left.stop).found = some operator ∧
          (silent.logicalExp operator.stop).found = some right) ∨
        (∃ right, t = .node .logicalJoin left [right] ∧
          (silent.logicalExp left.stop).found = some right ∧ ∀ p : Connective,
            (afterLiteral p.keyword (afterBlanks left.stop.rest)).bind Text.afterExp = none) ∨
        t = .node .logicalExp left [] ∧ Text.afterExp left.stop.rest = none) := by
  rw [logicalExp_eq, logicalAlternatives, Attempt.found_bind, Option.bind_eq_some_iff] at h
  obtain ⟨left, hleft, h⟩ := h
  refine ⟨left, hleft, ?_⟩
  simp only [Attempt.found_orElse, Option.or_eq_some_iff, Attempt.found_pure, joined,
    Attempt.found_bind, Option.bind_eq_some_iff, Option.some.injEq] at h
  rcases h with h | ⟨hand, h | ⟨hor, ⟨right, hright, rfl⟩ | ⟨hright, rfl⟩⟩⟩
  · obtain ⟨operator, right, rfl, hoperator, hright⟩ := exists_of_found_connected h
    exact .inl ⟨.and, operator, right, rfl, hoperator, hright⟩
  · obtain ⟨operator, right, rfl, hoperator, hright⟩ := exists_of_found_connected h
    exact .inl ⟨.or, operator, right, rfl, hoperator, hright⟩
  · refine .inr (.inl ⟨right, rfl, hright, fun p => ?_⟩)
    cases p with
    | and => exact (found_connected left "AND" .logicalAnd).symm.trans (by rw [hand]; rfl)
    | or => exact (found_connected left "OR" .logicalOr).symm.trans (by rw [hor]; rfl)
  · refine .inr (.inr ⟨rfl, ?_⟩)
    rw [Option.bind_eq_none_iff] at hright
    have hrest := rest_logicalExp silent.note left.stop ()
    cases hnone : (silent.logicalExp left.stop).found with
    | none => rw [← hrest]; exact congrArg _ hnone
    | some right => exact absurd (hright right hnone) (by simp)

theorem exists_of_found_delimited {opening closing : String} {rule : Rule}
    (h : (silent.delimited opening closing rule c).found = some t) :
    ∃ first inner last, t = .node rule first [.node .exp inner [], last] ∧
      (literal silent.note opening c).found = some first ∧
      (silent.logicalExp first.stop).found = some inner ∧
      (token silent.note closing inner.stop).found = some last := by
  simp only [delimited, Recognizer.exp, Attempt.found_bind, Attempt.found_pure,
    Option.bind_eq_some_iff, Option.some.injEq] at h
  obtain ⟨first, hfirst, _, ⟨inner, hinner, rfl⟩, last, hlast, rfl⟩ := h
  exact ⟨first, inner, last, rfl, hfirst, hinner, hlast⟩

/-- An operand is an expression in parentheses or quotes, a filter, or a word. -/
theorem exists_of_found_priExp (h : (silent.priExp c).found = some t) :
    (silent.delimited "(" ")" .paren c).found = some t ∨
      (silent.delimited "\"" "\"" .quote c).found = some t ∨
      ∃ item, t = .node .priExp item [] ∧ ((keywordExp silent.note c).found = some item ∨
        (ident silent.note c).found = some item) := by
  simp only [priExp, single, Attempt.found_orElse, Attempt.found_bind, Attempt.found_pure,
    Option.or_eq_some_iff, Option.bind_eq_some_iff, Option.some.injEq] at h
  rcases h with h | ⟨-, h | ⟨-, ⟨item, hitem, rfl⟩ | ⟨-, item, hitem, rfl⟩⟩⟩
  · exact .inl h
  · exact .inr (.inl h)
  · exact .inr (.inr ⟨item, rfl, .inl hitem⟩)
  · exact .inr (.inr ⟨item, rfl, .inr hitem⟩)

end Query

end SearchQuery
