import SearchQuery.Proofs.Diagnostic.Explanation

/-!
# What an error says

The place of a syntax error is the end of the longest part of the query that can be completed, and
the expected items are what can follow there: each of them can, behind a blank, and nothing else.

Main statements: `place_of_error` is about the place, and `expected_of_error` about the items.
-/

namespace SearchQuery

open Text

/-- Behind `front` and a blank, the item can stand in a text that is read. The end can stand right
behind `front`. -/
def Expected.CanFollow (front : List Char) : Expected → Prop
  | .literal l => ∃ cs, Accepted (front ++ ' ' :: (l.toList ++ cs))
  | .described d => d = identDescription ∧
    ∃ word cs, IsIdentifier word ∧ Accepted (front ++ ' ' :: (word ++ cs))
  | .endOfInput => Accepted front

theorem Expected.CanFollow.exists_accepted {front : List Char} {item : Expected}
    (h : item.CanFollow front) : ∃ cs, Accepted (front ++ cs) := by
  cases item with
  | literal l =>
    obtain ⟨cs, hcs⟩ := h
    exact ⟨_, hcs⟩
  | described d =>
    obtain ⟨-, word, cs, -, hcs⟩ := h
    exact ⟨_, hcs⟩
  | endOfInput => exact ⟨[], (List.append_nil front).symm ▸ h⟩

/-- An identifier is a form of every item. -/
theorem Expected.b_mem_forms (item : Expected) : "b" ∈ item.forms := by
  cases item with
  | literal l =>
    rw [forms]
    split <;> simp
  | described d => simp [forms]
  | endOfInput => simp [forms]

namespace SyntaxError.Explains

variable {s : String} {e : SyntaxError}

/-- No blank stands at the place of an error. -/
theorem isBlank_eq_false (h : e.Explains s) : ∀ x ∈ e.after.head?, isBlank x = false := by
  obtain ⟨item, hitem⟩ := List.exists_mem_of_ne_nil _ h.expected_ne_nil
  have hblanks := (h.viable item hitem).blanks
  intro x hx
  obtain ⟨rest, hrest⟩ := List.head?_eq_some_iff.1 hx
  rw [hrest] at hblanks
  exact not_isBlank_of_afterBlanks hblanks

/-- What can follow behind a blank is among the expected items. -/
theorem exists_heads (h : e.Explains s) {item : Expected} (hitem : item ∈ e.expected)
    (form : String) (hform : form ∈ item.forms) :
    ∃ item ∈ e.expected, ∃ ds, item.Heads (afterBlanks (form.toList ++ ds)) := by
  obtain ⟨ds, hds⟩ := accepted_of_completable ((h.viable item hitem).forms form hform)
  rw [List.append_assoc] at hds
  obtain ⟨item', hitem', hheads⟩ := h.complete _ (joins_blank (by decide) _ _) hds
  rw [afterBlanks_cons_of_isBlank (by decide)] at hheads
  exact ⟨item', hitem', ds, hheads⟩

/-- An identifier is always expected, so no letter stands at the place. -/
theorem isLetter_eq_false (h : e.Explains s) : ∀ x ∈ e.after.head?, isLetter x = false := by
  obtain ⟨item, hitem⟩ := List.exists_mem_of_ne_nil _ h.expected_ne_nil
  obtain ⟨item', hitem', ds, hheads⟩ := h.exists_heads hitem "b" item.b_mem_forms
  have hviable := h.viable item' hitem'
  change item'.Heads (afterBlanks ('b' :: ds)) at hheads
  rw [afterBlanks_cons_of_not_isBlank (by decide)] at hheads
  cases item' with
  | literal l =>
    have hl := hviable.literal l rfl
    obtain ⟨es, hes⟩ : l.toList <+: 'b' :: ds := hheads
    have hmarks : ∀ l ∈ Recognizer.literals, l.toList.head?.any (· ≠ 'b') := by decide
    have := hmarks l hl
    cases hls : l.toList <;> simp_all
  | described d =>
    intro x hx
    by_contra hletter
    exact hviable.not_heads ⟨x, hx, by simpa using hletter⟩
  | endOfInput => exact absurd hheads (by simp [Expected.Heads])

/-- A colon is expected wherever a colon with a quote is, so no colon stands at the place. -/
theorem ne_colon (h : e.Explains s) (hitem : .literal ":\"" ∈ e.expected) :
    ∀ x ∈ e.after.head?, x ≠ ':' := by
  obtain ⟨item, hitem', ds, hheads⟩ := h.exists_heads hitem ":b" (by decide)
  have hviable := h.viable item hitem'
  change item.Heads (afterBlanks (':' :: 'b' :: ds)) at hheads
  rw [afterBlanks_cons_of_not_isBlank (by decide)] at hheads
  cases item with
  | literal l =>
    have hmarks : ∀ l ∈ Recognizer.literals,
        l = ":" ∨ l = ":\"" ∨ l.toList.head?.any (· ≠ ':') := by decide
    rcases hmarks l (hviable.literal l rfl) with rfl | rfl | hother
    · rintro _ hx rfl
      obtain ⟨rest, hrest⟩ := List.head?_eq_some_iff.1 hx
      exact hviable.not_heads (hrest ▸ List.prefix_append [':'] rest)
    · have hheads : [':', '"'] <+: ':' :: 'b' :: ds := hheads
      simp at hheads
    · have hheads : l.toList <+: ':' :: 'b' :: ds := hheads
      cases hls : l.toList <;> simp_all
  | described d => simp [Expected.Heads, isLetter_of_lt] at hheads
  | endOfInput => simp [Expected.Heads] at hheads

/-- Whatever an error lists can follow the part before it. -/
theorem canFollow (h : e.Explains s) {item : Expected} (hitem : item ∈ e.expected) :
    item.CanFollow e.before := by
  have hviable := h.viable item hitem
  have hform (form : String) (hform : form ∈ item.forms) :
      ∃ cs, Accepted (e.before ++ ' ' :: (form.toList ++ cs)) := by
    obtain ⟨cs, hcs⟩ := accepted_of_completable (hviable.forms form hform)
    exact ⟨cs, by simpa using hcs⟩
  cases item with
  | literal l =>
    refine hform l ?_
    rw [Expected.forms]
    split <;> simp
  | described d =>
    obtain ⟨cs, hcs⟩ := hform "b" (Expected.b_mem_forms _)
    exact ⟨hviable.described d rfl, ['b'], cs, isIdentifier_letter (by decide), hcs⟩
  | endOfInput => exact (accepted_iff _).2 (hviable.ends rfl)

/-- The character at the place cannot follow. -/
theorem not_accepted (h : e.Explains s) {x : Char} (hx : x ∈ e.after.head?) (cs : List Char) :
    ¬ Accepted (e.before ++ x :: cs) := by
  intro haccepted
  have hblank := h.isBlank_eq_false x hx
  have hletter := h.isLetter_eq_false x hx
  obtain ⟨rest, hrest⟩ := List.head?_eq_some_iff.1 hx
  have hjoins : Joins e.after (x :: cs) := hrest ▸ joins_head hletter rest cs
  obtain ⟨item, hitem, hheads⟩ := h.complete _ hjoins haccepted
  have hviable := h.viable item hitem
  have hmissing := hviable.not_heads
  rw [afterBlanks_cons_of_not_isBlank hblank] at hheads
  rw [hrest] at hmissing
  cases item with
  | literal l =>
    have hmarks : ∀ l ∈ Recognizer.literals, l = ":\"" ∨
        l.toList.head?.any fun y => isLetter y || l.toList == [y] := by decide
    have hheads : l.toList <+: x :: cs := hheads
    have hmissing : ¬ l.toList <+: x :: rest := hmissing
    rcases hmarks l (hviable.literal l rfl) with rfl | hmark
    · have hcolon : [':', '"'] <+: x :: cs := hheads
      exact h.ne_colon hitem x hx (List.cons_prefix_cons.1 hcolon).1.symm
    · cases hls : l.toList with
      | nil => simp [hls] at hmark
      | cons y ys =>
        rw [hls, List.cons_prefix_cons] at hheads hmissing
        obtain ⟨rfl, -⟩ := hheads
        simp_all
  | described d =>
    obtain ⟨y, hy, hy'⟩ := hheads
    obtain rfl := Option.some.inj hy
    rw [hletter] at hy'
    contradiction
  | endOfInput => exact absurd hheads (by simp [Expected.Heads])

end SyntaxError.Explains

/-- A query fails at the end of the longest part that can be completed. This is a place between
characters, and no blank follows it. -/
theorem place_of_error {s : String} {err : QueryError} (h : ParseTree.ofQuery s = .error err) :
    ∃ e, err = .malformed e ∧
      splitAtByte? s.toList e.position = some (e.before, e.after) ∧
      (∀ x ∈ e.after.head?, isBlank x = false) ∧
      (∃ cs, Accepted (e.before ++ cs)) ∧
      ∀ x ∈ e.after.head?, ∀ cs, ¬ Accepted (e.before ++ x :: cs) := by
  obtain ⟨e, rfl, he⟩ := exists_explains h
  refine ⟨e, rfl, ?_, he.isBlank_eq_false, ?_, fun x hx cs => he.not_accepted hx cs⟩
  · rw [← he.input]
    exact splitAtByte?_byteCount e.before e.after
  · obtain ⟨item, hitem⟩ := List.exists_mem_of_ne_nil _ he.expected_ne_nil
    have hforms := (he.viable item hitem).forms "b" item.b_mem_forms
    obtain ⟨cs, hcs⟩ := accepted_of_completable hforms
    exact ⟨_, by rwa [List.append_assoc] at hcs⟩

/-- Nothing stands between the parentheses. -/
theorem exists_error_parens : ∃ err, ParseTree.ofQuery "()" = .error err := by
  have h : ¬ Accepted ['(', ')'] := by
    intro h
    obtain ⟨es, hes, -⟩ := (accepted_iff _).1 h
    rw [afterExp_eq, afterBlanks_cons_of_not_isBlank (by decide), afterOperand_paren,
      (Closing.paren []).afterExp_eq_none] at hes
    contradiction
  exact exists_error h

/-- Empty parentheses go wrong where they are closed. -/
theorem place_of_error_parens :
    ∃ err, ParseTree.ofQuery "()" = .error err ∧ ∃ e, err = .malformed e ∧
      splitAtByte? "()".toList e.position = some (e.before, e.after) ∧
      (∀ x ∈ e.after.head?, isBlank x = false) ∧
      (∃ cs, Accepted (e.before ++ cs)) ∧
      ∀ x ∈ e.after.head?, ∀ cs, ¬ Accepted (e.before ++ x :: cs) := by
  obtain ⟨err, h⟩ := exists_error_parens
  exact ⟨err, h, place_of_error h⟩

/-- The expected items, of which there is at least one and none twice, are those that can follow
where the query fails. -/
theorem expected_of_error {s : String} {err : QueryError}
    (h : ParseTree.ofQuery s = .error err) :
    ∃ e, err = .malformed e ∧ e.expected ≠ [] ∧ e.expected.Nodup ∧
      (∀ item ∈ e.expected, item.CanFollow e.before) ∧
      ∀ cs, Accepted (e.before ++ ' ' :: cs) →
        ∃ item ∈ e.expected, item.Heads (cs.dropWhile isBlank) := by
  obtain ⟨e, rfl, he⟩ := exists_explains h
  refine ⟨e, rfl, he.expected_ne_nil, he.nodup, fun item => he.canFollow, fun cs hcs => ?_⟩
  obtain ⟨item, hitem, hheads⟩ := he.complete _ (joins_blank (by decide) _ _) hcs
  rw [afterBlanks_cons_of_isBlank (by decide)] at hheads
  exact ⟨item, hitem, hheads⟩

/-- What can stand in empty parentheses. -/
theorem expected_of_error_parens :
    ∃ err, ParseTree.ofQuery "()" = .error err ∧ ∃ e, err = .malformed e ∧
      e.expected ≠ [] ∧ e.expected.Nodup ∧
      (∀ item ∈ e.expected, item.CanFollow e.before) ∧
      ∀ cs, Accepted (e.before ++ ' ' :: cs) →
        ∃ item ∈ e.expected, item.Heads (cs.dropWhile isBlank) := by
  obtain ⟨err, h⟩ := exists_error_parens
  exact ⟨err, h, expected_of_error h⟩

end SearchQuery
