import SearchQuery.Proofs.Reading.Remainder

/-!
# Reading by the next character

The next character decides which operand is read, and operators decide nothing. An operator and what
follows could as well be read as a word and what follows, and both stop at the same place. So an
expression is an operand and, if possible, another expression.

## Main definitions

* `Text.Blanks`, `Text.IsIdentifier` — blanks and an identifier, and nothing else.
* `Text.opens` — what an operand can begin with.

Main statements: `Text.afterExp_eq` is the recursion of `Text.afterExp` without operators, and
`Text.afterExp_of_afterExp` says that an expression is as long as it can be.
-/

namespace SearchQuery.Text

open Recognizer

variable {x : Char} {cs ds : List Char}

/-! ## Blanks -/

abbrev Blanks (gap : List Char) : Prop := ∀ x ∈ gap, isBlank x

theorem blanks_nil : Blanks [] := nofun

theorem blanks_space : Blanks [' '] := List.forall_mem_singleton.2 isBlank_space

@[simp] theorem afterBlanks_nil : afterBlanks [] = [] := rfl

theorem afterBlanks_cons_of_isBlank (h : isBlank x) : afterBlanks (x :: cs) = afterBlanks cs :=
  List.dropWhile_cons_of_pos h

theorem afterBlanks_cons_of_not_isBlank (h : isBlank x = false) :
    afterBlanks (x :: cs) = x :: cs :=
  List.dropWhile_cons_of_neg (by simp [h])

@[simp] theorem afterBlanks_afterBlanks (cs : List Char) :
    afterBlanks (afterBlanks cs) = afterBlanks cs :=
  List.dropWhile_idempotent ..

theorem not_isBlank_of_afterBlanks (h : afterBlanks cs = x :: ds) : isBlank x = false := by
  have := List.head?_dropWhile_not isBlank cs
  rw [show cs.dropWhile isBlank = x :: ds from h] at this
  simpa using this

/-- Where no blank comes next, nothing is skipped. -/
theorem skipBlanks_eq_self {c : Cursor} (h : ∀ x ∈ c.rest.head?, isBlank x = false) :
    c.skipBlanks = c := by
  have hblanks : c.rest.takeWhile isBlank = [] := by
    cases hc : c.rest with
    | nil => rfl
    | cons x xs => simp [h x (by simp [hc])]
  rw [Cursor.skipBlanks, Cursor.skipWhile, hblanks]
  exact Cursor.advance_zero c

theorem skipBlanks_skipBlanks (c : Cursor) : c.skipBlanks.skipBlanks = c.skipBlanks := by
  refine skipBlanks_eq_self fun x hx => ?_
  obtain ⟨xs, hxs⟩ := List.head?_eq_some_iff.1 hx
  rw [Cursor.rest_skipBlanks] at hxs
  exact not_isBlank_of_afterBlanks hxs

/-- What is skipped is blank. -/
theorem exists_blanks (cs : List Char) : ∃ gap, Blanks gap ∧ cs = gap ++ afterBlanks cs :=
  ⟨cs.takeWhile isBlank, fun _ => List.mem_takeWhile_imp, List.takeWhile_append_dropWhile.symm⟩

theorem exists_skipBlanks (c : Cursor) : ∃ gap, Blanks gap ∧ c.rest = gap ++ c.skipBlanks.rest := by
  rw [Cursor.rest_skipBlanks]
  exact exists_blanks c.rest

theorem afterBlanks_skipBlanks (c : Cursor) :
    afterBlanks c.skipBlanks.rest = c.skipBlanks.rest := by
  rw [Cursor.rest_skipBlanks]
  exact afterBlanks_afterBlanks c.rest

theorem afterBlanks_append {gap : List Char} (h : Blanks gap) (cs : List Char) :
    afterBlanks (gap ++ cs) = afterBlanks cs :=
  List.dropWhile_append_of_pos h

theorem afterBlanks_of_blanks {gap : List Char} (h : Blanks gap) : afterBlanks gap = [] := by
  rw [← List.append_nil gap, afterBlanks_append h, afterBlanks_nil]

theorem afterBlanks_append_of_ne {zs : List Char} (h : afterBlanks zs ≠ []) (cs : List Char) :
    afterBlanks (zs ++ cs) = afterBlanks zs ++ cs := by
  obtain ⟨gap, hgap, hzs⟩ := exists_blanks zs
  obtain ⟨x, xs, hx⟩ := List.exists_cons_of_ne_nil h
  have hblank := not_isBlank_of_afterBlanks hx
  rw [hx] at hzs ⊢
  rw [hzs, List.append_assoc, afterBlanks_append hgap, List.cons_append,
    afterBlanks_cons_of_not_isBlank hblank]

/-! ## Fixed texts and identifiers -/

theorem afterLiteral_eq_some_iff {s : String} :
    afterLiteral s cs = some ds ↔ cs = s.toList ++ ds := by
  rw [afterLiteral, Option.ite_none_right_eq_some, Option.some.injEq, ← String.length_toList]
  constructor
  · rintro ⟨⟨es, rfl⟩, rfl⟩
    rw [List.drop_left]
  · rintro rfl
    exact ⟨List.prefix_append _ _, List.drop_left⟩

theorem exists_token {s : String} (h : afterLiteral s (afterBlanks cs) = some ds) :
    ∃ gap, Blanks gap ∧ cs = gap ++ (s.toList ++ ds) := by
  obtain ⟨gap, hgap, hcs⟩ := exists_blanks cs
  exact ⟨gap, hgap, afterLiteral_eq_some_iff.1 h ▸ hcs⟩

theorem afterLiteral_append (s : String) (cs : List Char) :
    afterLiteral s (s.toList ++ cs) = some cs :=
  afterLiteral_eq_some_iff.2 rfl

theorem afterLiteral_of_head {s : String} {y : Char} {ys : List Char} (hs : s.toList = y :: ys)
    (h : cs.head? ≠ some y) : afterLiteral s cs = none := by
  cases hl : afterLiteral s cs with
  | none => rfl
  | some ds =>
    rw [afterLiteral_eq_some_iff.1 hl, hs] at h
    exact absurd rfl h

def IsIdentifier (cs : List Char) : Prop :=
  ∃ x xs, cs = x :: xs ∧ isLetter x ∧ xs.all isNameChar

theorem IsIdentifier.isNameChar_of_mem (h : IsIdentifier cs) {y : Char} (hy : y ∈ cs) :
    isNameChar y := by
  obtain ⟨x, xs, rfl, hx, hxs⟩ := h
  rcases List.mem_cons.1 hy with rfl | hy
  · exact isNameChar_of_isLetter hx
  · exact List.all_eq_true.1 hxs y hy

theorem isIdentifier_letter (h : isLetter x) : IsIdentifier [x] := ⟨x, [], rfl, h, rfl⟩

/-- Both operators are words. -/
theorem isIdentifier_operator {op : String} (hop : op = "AND" ∨ op = "OR") :
    IsIdentifier op.toList := by
  rcases hop with rfl | rfl
  · exact ⟨'A', ['N', 'D'], rfl, by decide, by decide⟩
  · exact ⟨'O', ['R'], rfl, by decide, by decide⟩

theorem afterName_cons_of_isLetter (h : isLetter x) :
    afterName (x :: cs) = some (cs.dropWhile isNameChar) := by
  rw [afterName, if_pos (by simpa using h), List.dropWhile_cons_of_pos (isNameChar_of_isLetter h)]

theorem afterName_cons_of_not_isLetter (h : isLetter x = false) : afterName (x :: cs) = none := by
  rw [afterName, if_neg (by simp [h])]

/-! ## Operands -/

def opens (x : Char) : Bool := x = '(' || x = '"' || isLetter x

theorem not_isBlank_of_opens (h : opens x) : isBlank x = false := by
  simp only [opens, Bool.or_eq_true, decide_eq_true_eq] at h
  rcases h with (rfl | rfl) | h
  · decide
  · decide
  · exact not_isBlank_of_isNameChar (isNameChar_of_isLetter h)

theorem opens_ne_colon (h : opens x) : x ≠ ':' := by
  rintro rfl
  exact absurd h (by decide)

theorem afterOperand_paren (cs : List Char) :
    afterOperand ('(' :: cs) = (afterExp cs).bind fun r => afterLiteral ")" (afterBlanks r) := by
  have hparen : afterLiteral "(" ('(' :: cs) = some cs := afterLiteral_append "(" cs
  have hquote : afterLiteral "\"" ('(' :: cs) = none := afterLiteral_of_head rfl nofun
  have hname : afterName ('(' :: cs) = none := afterName_cons_of_not_isLetter (by decide)
  rw [afterOperand_eq, hparen, hquote, hname]
  exact Option.or_none

theorem afterOperand_quote (cs : List Char) :
    afterOperand ('"' :: cs) = (afterExp cs).bind fun r => afterLiteral "\"" (afterBlanks r) := by
  have hparen : afterLiteral "(" ('"' :: cs) = none := afterLiteral_of_head rfl nofun
  have hquote : afterLiteral "\"" ('"' :: cs) = some cs := afterLiteral_append "\"" cs
  have hname : afterName ('"' :: cs) = none := afterName_cons_of_not_isLetter (by decide)
  rw [afterOperand_eq, hparen, hquote, hname]
  exact Option.or_none

/-- A word is the key of a filter if it can be. -/
theorem afterOperand_letter (h : isLetter x) :
    afterOperand (x :: cs) =
      some ((afterKey (cs.dropWhile isNameChar)).getD (cs.dropWhile isNameChar)) := by
  have hparen : afterLiteral "(" (x :: cs) = none := by
    refine afterLiteral_of_head rfl ?_
    rintro ⟨⟩
    exact absurd h (by decide)
  have hquote : afterLiteral "\"" (x :: cs) = none := by
    refine afterLiteral_of_head rfl ?_
    rintro ⟨⟩
    exact absurd h (by decide)
  rw [afterOperand_eq, hparen, hquote, afterName_cons_of_isLetter h]
  cases hkey : afterKey (cs.dropWhile isNameChar) <;> simp [hkey]

theorem afterOperand_nil : afterOperand [] = none := by
  rw [afterOperand_eq]
  rfl

theorem afterOperand_of_not_opens (h : opens x = false) : afterOperand (x :: cs) = none := by
  simp only [opens, Bool.or_eq_false_iff, decide_eq_false_iff_not] at h
  obtain ⟨⟨hparen, hquote⟩, hletter⟩ := h
  have hparen : afterLiteral "(" (x :: cs) = none :=
    afterLiteral_of_head rfl fun h => hparen (Option.some.inj h)
  have hquote : afterLiteral "\"" (x :: cs) = none :=
    afterLiteral_of_head rfl fun h => hquote (Option.some.inj h)
  rw [afterOperand_eq, hparen, hquote, afterName_cons_of_not_isLetter hletter]
  rfl

theorem opens_of_afterOperand (h : afterOperand cs = some ds) :
    ∃ x xs, cs = x :: xs ∧ opens x := by
  cases cs with
  | nil => simp [afterOperand_nil] at h
  | cons x xs =>
    refine ⟨x, xs, rfl, ?_⟩
    by_contra hx
    rw [afterOperand_of_not_opens (by simpa using hx)] at h
    contradiction

/-- A filter goes on with a colon. -/
theorem afterKey_of_head (h : (afterBlanks cs).head? ≠ some ':') : afterKey cs = none := by
  have hquoted : afterLiteral ":\"" (afterBlanks cs) = none := afterLiteral_of_head rfl h
  have hsimple : afterLiteral ":" (afterBlanks cs) = none := afterLiteral_of_head rfl h
  rw [afterKey_eq, hquoted, hsimple]
  rfl

/-! ## Expressions -/

/-- An operand takes up at least one character. -/
theorem length_lt_of_afterOperand (h : afterOperand cs = some ds) : ds.length < cs.length := by
  obtain ⟨t, ht, rfl⟩ := Option.map_eq_some_iff.1 h
  exact priExp_yields (afresh_advances _) ⟨0, cs⟩ () t ht

@[simp] theorem afterExp_afterBlanks (cs : List Char) :
    afterExp (afterBlanks cs) = afterExp cs := by
  rw [afterExp_alternatives, afterExp_alternatives cs, afterBlanks_afterBlanks]

theorem afterExp_cons_of_isBlank (h : isBlank x) : afterExp (x :: cs) = afterExp cs := by
  rw [← afterExp_afterBlanks, afterBlanks_cons_of_isBlank h, afterExp_afterBlanks]

theorem afterExp_blanks_append {gap : List Char} (h : Blanks gap) (cs : List Char) :
    afterExp (gap ++ cs) = afterExp cs := by
  rw [← afterExp_afterBlanks, afterBlanks_append h, afterExp_afterBlanks]

theorem opens_of_afterExp (h : afterExp cs = some ds) :
    ∃ x xs, afterBlanks cs = x :: xs ∧ opens x := by
  rw [afterExp_alternatives] at h
  obtain ⟨r, hr, -⟩ := Option.bind_eq_some_iff.1 h
  exact opens_of_afterOperand hr

/-- If operators do not matter behind `cs`, only the expression there does. -/
theorem alternatives_eq (h : ∀ op, op = "AND" ∨ op = "OR" → ∀ es k,
    afterBlanks cs = op.toList ++ es → afterExp es = some k → afterExp cs = some k) :
    ((afterLiteral "AND" (afterBlanks cs)).bind afterExp).or
      (((afterLiteral "OR" (afterBlanks cs)).bind afterExp).or
        ((afterExp cs).or (some cs))) = some ((afterExp cs).getD cs) := by
  have hop {op : String} (ho : op = "AND" ∨ op = "OR") (k : List Char)
      (hk : (afterLiteral op (afterBlanks cs)).bind afterExp = some k) : afterExp cs = some k := by
    obtain ⟨es, hes, hk⟩ := Option.bind_eq_some_iff.1 hk
    exact h op ho es k (afterLiteral_eq_some_iff.1 hes) hk
  cases hand : (afterLiteral "AND" (afterBlanks cs)).bind afterExp with
  | some k => rw [hop (.inl rfl) k hand]; rfl
  | none =>
    cases hor : (afterLiteral "OR" (afterBlanks cs)).bind afterExp with
    | some k => rw [hop (.inr rfl) k hor]; rfl
    | none => cases afterExp cs <;> rfl

/-- Behind a word that no colon follows. -/
theorem afterOperand_word {y : Char} {ys : List Char} (hy : isLetter y) (hys : ys.all isNameChar)
    (hcs : cs.dropWhile isNameChar = cs) (h : (afterBlanks cs).head? ≠ some ':') :
    afterOperand (y :: ys ++ cs) = some cs := by
  have hword : (ys ++ cs).dropWhile isNameChar = cs := by
    rw [List.dropWhile_append_of_pos (List.all_eq_true.1 hys), hcs]
  rw [List.cons_append, afterOperand_letter hy, hword, afterKey_of_head h]
  rfl

/-- No word goes on with what opens an operand, unless both are one word. -/
theorem dropWhile_of_opens (hx : afterBlanks cs = x :: ds) (hopens : opens x)
    (hglued : ¬(isLetter x ∧ cs = x :: ds)) : cs.dropWhile isNameChar = cs := by
  cases cs with
  | nil => rfl
  | cons z zs =>
    refine List.dropWhile_cons_of_neg fun hz => hglued ?_
    rw [afterBlanks_cons_of_not_isBlank (not_isBlank_of_isNameChar hz)] at hx
    obtain ⟨rfl, rfl⟩ := List.cons.inj hx
    refine ⟨?_, rfl⟩
    simp only [opens, Bool.or_eq_true, decide_eq_true_eq] at hopens
    rcases hopens with (rfl | rfl) | h
    · exact absurd hz (by decide)
    · exact absurd hz (by decide)
    · exact h

/-- An operator before an expression is read as a word, or as the beginning of one. -/
theorem afterExp_operator {op : String} (hop : op = "AND" ∨ op = "OR") {k : List Char}
    (h : afterExp cs = some k) : afterExp (op.toList ++ cs) = some k := by
  induction hn : cs.length using Nat.strongRecOn generalizing op cs k with
  | ind n ih =>
    subst hn
    obtain ⟨x, xs, hx, hopens⟩ := opens_of_afterExp h
    obtain ⟨y, ys, hy, hletter, hname⟩ := isIdentifier_operator hop
    have hblanks : afterBlanks (y :: (ys ++ cs)) = y :: (ys ++ cs) :=
      afterBlanks_cons_of_not_isBlank (not_isBlank_of_isNameChar (isNameChar_of_isLetter hletter))
    rw [hy, List.cons_append, afterExp_alternatives, hblanks]
    by_cases hglued : isLetter x ∧ cs = x :: xs
    · -- The operator and the word behind it are one word.
      obtain ⟨hx', rfl⟩ := hglued
      have hword : (ys ++ x :: xs).dropWhile isNameChar = xs.dropWhile isNameChar := by
        rw [List.dropWhile_append_of_pos (List.all_eq_true.1 hname),
          List.dropWhile_cons_of_pos (isNameChar_of_isLetter hx')]
      rw [afterOperand_letter hletter, hword, ← afterOperand_letter hx', ← hx,
        ← afterExp_alternatives, h]
    · -- The operator is a word of its own.
      have hcs := dropWhile_of_opens hx hopens hglued
      have hcolon : (afterBlanks cs).head? ≠ some ':' := by
        rw [hx]
        exact fun h => opens_ne_colon hopens (Option.some.inj h)
      rw [← List.cons_append, afterOperand_word hletter hname hcs hcolon, Option.bind_some,
        alternatives_eq, h]
      · rfl
      intro op' hop' es k' hes hk'
      have hlen : es.length < cs.length := by
        have := (List.dropWhile_suffix isBlank (l := cs)).length_le
        rw [show cs.dropWhile isBlank = op'.toList ++ es from hes, List.length_append] at this
        rcases hop' with rfl | rfl <;> simp at this <;> omega
      rw [← afterExp_afterBlanks, hes]
      exact ih _ hlen hop' hk' rfl

/-- An expression is an operand and, if possible, another expression. -/
theorem afterExp_eq (cs : List Char) :
    afterExp cs = (afterOperand (afterBlanks cs)).map fun r => (afterExp r).getD r := by
  rw [afterExp_alternatives]
  cases afterOperand (afterBlanks cs) with
  | none => rfl
  | some r =>
    refine alternatives_eq fun op hop es k hes hk => ?_
    rw [← afterExp_afterBlanks, hes]
    exact afterExp_operator hop hk

theorem afterExp_nil : afterExp [] = none := by
  rw [afterExp_eq, afterBlanks_nil, afterOperand_nil]
  rfl

/-- Blanks alone are no expression. -/
theorem afterExp_of_blanks {gap : List Char} (h : Blanks gap) : afterExp gap = none := by
  rw [← afterExp_afterBlanks, afterBlanks_of_blanks h, afterExp_nil]

/-- Where no expression can be read behind an operator, the operator is a word of its own. -/
theorem afterExp_operator_of_none {op : String} (hop : op = "AND" ∨ op = "OR")
    (h : afterExp cs = none) (hx : afterBlanks cs = x :: ds) (hopens : opens x) :
    afterExp (op.toList ++ cs) = some cs := by
  obtain ⟨y, ys, hy, hletter, hname⟩ := isIdentifier_operator hop
  have hglued : ¬(isLetter x ∧ cs = x :: ds) := by
    rintro ⟨hx', rfl⟩
    rw [afterExp_eq, hx, afterOperand_letter hx'] at h
    contradiction
  have hblanks : afterBlanks (y :: (ys ++ cs)) = y :: (ys ++ cs) :=
    afterBlanks_cons_of_not_isBlank (not_isBlank_of_isNameChar (isNameChar_of_isLetter hletter))
  have hcolon : (afterBlanks cs).head? ≠ some ':' := by
    rw [hx]
    exact fun h => opens_ne_colon hopens (Option.some.inj h)
  rw [hy, List.cons_append, afterExp_eq, hblanks, ← List.cons_append,
    afterOperand_word hletter hname (dropWhile_of_opens hx hopens hglued) hcolon,
    Option.map_some, h]
  rfl

/-- No expression follows where an expression ends. -/
theorem afterExp_of_afterExp (h : afterExp cs = some ds) : afterExp ds = none := by
  induction hn : cs.length using Nat.strongRecOn generalizing cs with
  | ind n ih =>
    subst hn
    rw [afterExp_eq] at h
    obtain ⟨r, hr, hds⟩ := Option.map_eq_some_iff.1 h
    cases he : afterExp r with
    | none =>
      rw [he] at hds
      obtain rfl : r = ds := hds
      exact he
    | some k =>
      rw [he] at hds
      obtain rfl : k = ds := hds
      have hlt := length_lt_of_afterOperand hr
      have hle := (List.dropWhile_suffix isBlank (l := cs)).length_le
      exact ih _ (Nat.lt_of_lt_of_le hlt hle) he rfl

end SearchQuery.Text
