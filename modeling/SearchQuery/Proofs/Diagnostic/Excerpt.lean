import SearchQuery.Diagnostic.SyntaxError
import SearchQuery.Proofs.Reading.Place
import SearchQuery.Proofs.Text.Line

/-!
# The line shown with an error

An error counts its line and column in the text before the failure. Its long message looks the line
up again and draws a caret under it. Both agree: the line shown is the one in which the failure
lies, and the caret stands under the character at the failure, or behind the line if it ends there.

## Main definitions

* `SyntaxError.shown`, `SyntaxError.pointer` — the line of the message with the excerpt, and the
  line with the caret.

Main statement: `SyntaxError.excerpt_at_cut`.
-/

namespace SearchQuery

namespace Text

variable {before before' after after' : List Char} {n : Nat}

/-! ## Places and bytes -/

theorem byteCount_of_splitAtByte? {cs front back : List Char}
    (h : splitAtByte? cs n = some (front, back)) (hn : n ≤ byteCount cs) :
    byteCount front = n := by
  fun_induction splitAtByte? cs n generalizing front back with
  | case1 => simp_all
  | case2 => simp at hn
  | case3 c cs n hc ih =>
    obtain ⟨⟨front', back'⟩, hs, heq⟩ := Option.map_eq_some_iff.1 h
    obtain ⟨rfl, rfl⟩ := Prod.mk.inj heq
    rw [byteCount_cons] at hn ⊢
    rw [ih hs (by omega)]
    omega
  | case4 => simp at h

/-- Line and column are in the order of the bytes. -/
theorem byteCount_lt_iff (h : before ++ after = before' ++ after') :
    byteCount before < byteCount before' ↔ placeAfter before < placeAfter before' := by
  have hprefix : before <+: before' ∨ before' <+: before :=
    List.prefix_or_prefix_of_prefix ⟨after, h⟩ ⟨after', rfl⟩
  have hmono (cs ds : List Char) :
      byteCount cs ≤ byteCount (cs ++ ds) ∧ placeAfter cs ≤ placeAfter (cs ++ ds) := by
    by_cases hds : ds = []
    · simp [hds]
    · exact ⟨by simp, (placeAfter_lt_append cs hds).le⟩
  rcases hprefix with ⟨ds, rfl⟩ | ⟨ds, rfl⟩
  · by_cases hds : ds = []
    · simp [hds]
    · simp [byteCount_pos hds, placeAfter_lt_append before hds]
  · obtain ⟨hbytes, hplace⟩ := hmono before' ds
    exact iff_of_false hbytes.not_gt hplace.not_gt

/-- Two places of one text have the same offset exactly if they have the same line and column. -/
theorem byteCount_eq_iff (h : before ++ after = before' ++ after') :
    byteCount before = byteCount before' ↔ placeAfter before = placeAfter before' := by
  rw [le_antisymm_iff, ← not_lt, ← not_lt, byteCount_lt_iff h, byteCount_lt_iff h.symm, not_lt,
    not_lt, ← le_antisymm_iff]

end Text

namespace SyntaxError

open Text

variable {e : SyntaxError} {s : String} {before after : List Char}

/-! ## The long message -/

/-- The line of the long message with the excerpt. -/
def shown (e : SyntaxError) : List Char := e.gutter.toList ++ e.excerpt

/-- The line of the long message with the caret. -/
def pointer (e : SyntaxError) : List Char :=
  List.replicate (e.gutter.length + e.column - 1) ' ' ++ ['^']

/-- The excerpt is the row around the place of the failure. -/
theorem excerpt_eq (e : SyntaxError) : e.excerpt = rowAt e.before e.after := by
  rw [excerpt, input, line, lineAfter, Nat.add_sub_cancel, getD_lines]

theorem newline_notMem_toDigits (n : Nat) : '\n' ∉ Nat.toDigits 10 n := by
  intro h
  exact absurd (Nat.isDigit_of_mem_toDigits (by decide) (by decide) h) (by decide)

/-- The second line of the long message shows the line of the failure, and the third the caret. -/
theorem splitOn_detailed (e : SyntaxError) : ∃ header rest,
    e.detailed.toList.splitOn '\n' = header :: e.shown :: e.pointer :: rest := by
  let header := "Line " ++ toString e.line ++ ", col " ++ toString e.column ++ ":"
  have hgutter : e.gutter = "> " ++ toString e.line ++ " | " := rfl
  let pad := String.ofList (List.replicate (e.gutter.length + e.column - 1) ' ')
  have htext : e.detailed = "Line " ++ toString e.line ++ ", col " ++ toString e.column ++ ":\n" ++
      e.gutter ++ String.ofList e.excerpt ++ "\n" ++ pad ++ "^\nExpected " ++ e.wanted := rfl
  have hlist : e.detailed.toList = header.toList ++ '\n' ::
      (e.shown ++ '\n' :: (e.pointer ++ '\n' :: ("Expected " ++ e.wanted).toList)) := by
    rw [htext]
    simp [shown, pointer, header, pad]
  have hheader : '\n' ∉ header.toList := by
    simp [header, newline_notMem_toDigits]
  have hshown : '\n' ∉ e.shown := by
    simp [shown, hgutter, newline_notMem_toDigits, excerpt_eq, newline_notMem_rowAt]
  have hpointer : '\n' ∉ e.pointer := by
    simp [pointer]
  rw [hlist, List.splitOn_append_cons_self, List.splitOn_append_cons_self,
    List.splitOn_append_cons_self, List.splitOn_eq_singleton hheader,
    List.splitOn_eq_singleton hshown, List.splitOn_eq_singleton hpointer]
  exact ⟨_, _, rfl⟩

/-- What stands above the caret is what the excerpt has at the column. -/
theorem getElem?_shown (e : SyntaxError) :
    e.shown[e.pointer.idxOf '^']? = e.excerpt[e.column - 1]? := by
  have hcaret : e.pointer.idxOf '^' = e.gutter.toList.length + (e.column - 1) := by
    have hcolumn : 0 < e.column := Nat.succ_pos _
    rw [pointer, List.idxOf_append_of_notMem (by simp), String.length_toList]
    simp
    omega
  rw [hcaret, shown, List.getElem?_append_right (Nat.le_add_right _ _), Nat.add_sub_cancel_left]

/-! ## Errors at places of one text -/

/-- There is an error at every place between two characters. -/
theorem at?_byteCount (hs : s.toList = before ++ after) (expected : List Expected) :
    at? s (byteCount before) expected = some ⟨before, after, expected⟩ := by
  rw [at?, hs, splitAtByte?_byteCount]
  rfl

/-- An error at any place between characters has a line and a column that no other place of the text
has, greater ones the further on it is. The long message shows the line around the place. The caret
points at the character at the place, unless the line ends there. Then it stands right behind the
line, or one further if the place is between a carriage return and its line feed. -/
theorem excerpt_at_cut (hs : s.toList = before ++ after) (expected : List Expected) :
    ∃ e, at? s (byteCount before) expected = some e ∧
      (∀ n others e', n ≤ byteCount s.toList → at? s n others = some e' →
        (byteCount before < n ↔ toLex (e.line, e.column) < toLex (e'.line, e'.column)) ∧
        (byteCount before = n ↔ (e.line, e.column) = (e'.line, e'.column))) ∧
      (∃ header rest, e.detailed.toList.splitOn '\n' = header :: e.shown :: e.pointer :: rest) ∧
      e.excerpt = rowAt before after ∧
      (¬ EndsRow after → e.excerpt[e.column - 1]? = after.head? ∧
        e.shown[e.pointer.idxOf '^']? = after.head?) ∧
      (EndsRow after → e.column - 1 = e.excerpt.length +
        if before.getLast? = some '\r' ∧ after.head? = some '\n' then 1 else 0) := by
  refine ⟨_, at?_byteCount hs expected, fun n others e' hn he' => ?_, splitOn_detailed _,
    excerpt_eq _, fun h => ?_, fun h => ?_⟩
  · obtain ⟨⟨front, back⟩, hsplit, rfl⟩ := Option.map_eq_some_iff.1 he'
    have htext : before ++ after = front ++ back := by
      rw [← hs, append_of_splitAtByte? hsplit]
    rw [← byteCount_of_splitAtByte? hsplit hn]
    exact ⟨byteCount_lt_iff htext, (byteCount_eq_iff htext).trans toLex_inj⟩
  · rw [getElem?_shown, excerpt_eq]
    exact ⟨getElem?_rowAt h, getElem?_rowAt h⟩
  · rw [excerpt_eq]
    exact length_rowAt h

/-- In the second line, between two letters. The carriage return belongs to the first line. -/
theorem excerpt_at_cut_letters :
    let s := "é\r\nab"
    let before := "é\r\na".toList
    s.toList = before ++ ['b'] ∧ byteCount before = 5 ∧ ¬ EndsRow ['b'] ∧
      ∃ e, at? s 5 [] = some e ∧ (e.line, e.column) = (2, 2) ∧ e.excerpt = ['a', 'b'] ∧
        e.excerpt[e.column - 1]? = some 'b' ∧
        ∃ e', at? s 6 [] = some e' ∧ toLex (e.line, e.column) < toLex (e'.line, e'.column) := by
  intro s before
  have hs : s.toList = before ++ ['b'] := by decide
  have hrow : ¬ EndsRow ['b'] := by decide
  obtain ⟨e, he, hplace, -, hexcerpt, hpoints, -⟩ := excerpt_at_cut hs []
  have hend : at? s 6 [] = some ⟨s.toList, [], []⟩ := by decide
  refine ⟨hs, by decide, hrow, e, he, ?_, hexcerpt.trans (by decide), (hpoints hrow).1, _, hend, ?_⟩
  · obtain rfl := Option.some.inj ((at?_byteCount hs []).symm.trans he)
    decide
  · exact (hplace 6 [] _ (by decide) hend).1.1 (by decide)

end SyntaxError

end SearchQuery
