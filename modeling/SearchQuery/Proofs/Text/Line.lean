import Mathlib.Data.List.DropRight
import Mathlib.Data.Prod.Lex
import SearchQuery.Text.Line

/-!
# Lines and places

Line and column tell the places of a text apart and are ordered like them. The line of a place can
be read off the text on both sides of it, or be found again by its number among all lines.

## Main definitions

* `Text.placeAfter` — line and column, in lexicographic order.
* `Text.rowAt` — the line of a place, read off the text on both sides.
* `Text.EndsRow` — a line ends at a place.

Main statements: `Text.placeAfter_lt_append`, `Text.getD_lines` and `Text.getElem?_rowAt`.
-/

namespace SearchQuery.Text

variable {row before after cs ds : List Char} {n : Nat}

/-! ## Lines of a text -/

/-- Without a line feed there is one line, or none if there is no text. -/
theorem lines_of_notMem (h : '\n' ∉ row) : lines row = if row.isEmpty then [] else [row] := by
  rw [lines, List.splitOn_eq_singleton h]
  rfl

/-- A line feed ends the first line. -/
theorem lines_append (h : '\n' ∉ row) (cs : List Char) :
    lines (row ++ '\n' :: cs) = dropReturn row :: lines cs := by
  rw [lines, lines, List.splitOn_append_cons_self, List.splitOn_eq_singleton h]
  cases hparts : cs.splitOn '\n' with
  | nil => exact absurd hparts (List.splitOn_ne_nil _ _)
  | cons part parts => rfl

/-- Rows that are all ended by a line feed are the lines of their text. -/
theorem lines_flatMap {rows : List (List Char)} (h : ∀ row ∈ rows, '\n' ∉ row) :
    lines (rows.flatMap (· ++ ['\n'])) = rows.map dropReturn := by
  induction rows with
  | nil => rfl
  | cons row rows ih =>
    obtain ⟨hrow, hrows⟩ := List.forall_mem_cons.1 h
    rw [List.flatMap_cons, List.append_assoc, List.singleton_append, lines_append hrow, ih hrows,
      List.map_cons]

theorem dropReturn_of_ne (h : row.getLast? ≠ some '\r') : dropReturn row = row := if_neg h

theorem dropReturn_concat (row : List Char) : dropReturn (row ++ ['\r']) = row := by
  simp [dropReturn]

/-! ## Places -/

/-- Line and column of the place after some characters. Lines come first in the order. -/
def placeAfter (cs : List Char) : ℕ ×ₗ ℕ := toLex (lineAfter cs, columnAfter cs)

/-- Behind every character is a later place. -/
theorem placeAfter_lt_concat (cs : List Char) (x : Char) :
    placeAfter cs < placeAfter (cs ++ [x]) := by
  rw [placeAfter, placeAfter, Prod.Lex.toLex_lt_toLex, lineAfter_concat, columnAfter_concat]
  by_cases hx : x = '\n'
  · left
    simp [hx]
  · right
    simp [hx]

/-- Further on in a text, line and column are greater. -/
theorem placeAfter_lt_append (cs : List Char) (h : ds ≠ []) :
    placeAfter cs < placeAfter (cs ++ ds) := by
  induction ds using List.reverseRecOn with
  | nil => exact absurd rfl h
  | append_singleton ds x ih =>
    rw [← List.append_assoc]
    by_cases hds : ds = []
    · rw [hds, List.append_nil]
      exact placeAfter_lt_concat cs x
    · exact (ih hds).trans (placeAfter_lt_concat (cs ++ ds) x)

/-! ## The line of a place -/

/-- What lies between the last line feed before a place and the next one or the end of the text,
without the carriage return that belongs to a line end. -/
def rowAt (before after : List Char) : List Char :=
  let row := before.rtakeWhile (· != '\n') ++ after.takeWhile (· != '\n')
  if '\n' ∈ after then dropReturn row else row

/-- What stands behind a line feed is out of sight. -/
theorem takeWhile_append_newline (cs ds : List Char) :
    (cs ++ '\n' :: ds).takeWhile (· != '\n') = cs.takeWhile (· != '\n') := by
  induction cs with
  | nil => rfl
  | cons x cs ih => by_cases hx : x = '\n' <;> simp [hx, ih]

theorem takeWhile_of_notMem (h : '\n' ∉ row) : row.takeWhile (· != '\n') = row := by
  rw [List.takeWhile_eq_self_iff]
  intro x hx
  simpa using ne_of_mem_of_not_mem hx h

theorem rtakeWhile_append_newline (cs ds : List Char) :
    (cs ++ '\n' :: ds).rtakeWhile (· != '\n') = ds.rtakeWhile (· != '\n') := by
  rw [List.rtakeWhile, List.reverse_append, List.reverse_cons, List.append_assoc,
    List.singleton_append, takeWhile_append_newline, List.rtakeWhile]

theorem rtakeWhile_of_notMem (h : '\n' ∉ row) : row.rtakeWhile (· != '\n') = row := by
  rw [List.rtakeWhile, takeWhile_of_notMem (by simpa using h), List.reverse_reverse]

theorem getD_lines_zero (hbefore : '\n' ∉ before) (after : List Char) :
    (lines (before ++ after)).getD 0 [] = rowAt before after := by
  rw [rowAt, rtakeWhile_of_notMem hbefore]
  by_cases hafter : '\n' ∈ after
  · obtain ⟨row, others, rfl, hrow⟩ := List.eq_append_cons_of_mem hafter
    have hline : '\n' ∉ before ++ row := by simp [hbefore, hrow]
    rw [if_pos hafter, takeWhile_append_newline, takeWhile_of_notMem hrow, ← List.append_assoc,
      lines_append hline, List.getD_cons_zero]
  · have hline : '\n' ∉ before ++ after := by simp [hbefore, hafter]
    rw [if_neg hafter, takeWhile_of_notMem hafter, lines_of_notMem hline]
    cases before ++ after <;> rfl

/-- The line of a place has the number of line feeds before it, counted from 0. -/
theorem getD_lines (before after : List Char) :
    (lines (before ++ after)).getD (before.count '\n') [] = rowAt before after := by
  induction hn : before.count '\n' generalizing before with
  | zero => exact getD_lines_zero (List.count_eq_zero.1 hn) after
  | succ n ih =>
    -- Without the first line both sides speak of a shorter text.
    have hmem : '\n' ∈ before := List.count_pos_iff.1 (hn ▸ Nat.succ_pos n)
    obtain ⟨row, others, rfl, hrow⟩ := List.eq_append_cons_of_mem hmem
    have hothers : others.count '\n' = n := by
      simpa [List.count_eq_zero_of_not_mem hrow] using hn
    rw [List.append_assoc, List.cons_append, lines_append hrow, List.getD_cons_succ,
      ih others hothers, rowAt, rowAt, rtakeWhile_append_newline]

/-- A line ends at the place before `after`, with the text or with a line feed and perhaps a
carriage return. -/
def EndsRow (after : List Char) : Prop := after = [] ∨ ['\n'] <+: after ∨ ['\r', '\n'] <+: after

instance (after : List Char) : Decidable (EndsRow after) :=
  inferInstanceAs (Decidable (_ ∨ _ ∨ _))

theorem columnAfter_sub_one (before : List Char) :
    columnAfter before - 1 = (before.rtakeWhile (· != '\n')).length := by
  simp [columnAfter, List.rtakeWhile]

/-- Dropping a carriage return leaves other characters where they are. -/
theorem getElem?_dropReturn (h : n + 1 < row.length ∨ row[n]? ≠ some '\r') :
    (dropReturn row)[n]? = row[n]? := by
  unfold dropReturn
  split
  · next hlast =>
    rw [List.getLast?_eq_getElem?] at hlast
    rw [List.getElem?_dropLast]
    grind
  · rfl

/-- Where no line ends, the character at the place is in the line, at its column. -/
theorem getElem?_rowAt (h : ¬ EndsRow after) :
    (rowAt before after)[columnAfter before - 1]? = after.head? := by
  rw [columnAfter_sub_one]
  cases after with
  | nil => exact absurd (.inl rfl) h
  | cons x rest =>
    have hx : x ≠ '\n' := by
      rintro rfl
      exact h (.inr (.inl (by simp)))
    have htake : (x :: rest).takeWhile (· != '\n') = x :: rest.takeWhile (· != '\n') := by
      simp [hx]
    have hat : (before.rtakeWhile (· != '\n') ++ x :: rest.takeWhile (· != '\n'))[
        (before.rtakeWhile (· != '\n')).length]? = some x := by simp
    rw [rowAt, htake, List.head?_cons]
    split
    · next hmem =>
      rw [getElem?_dropReturn, hat]
      by_cases hnil : rest.takeWhile (· != '\n') = []
      · -- The line feed follows at once, so the character is no carriage return.
        right
        rw [hat]
        intro hreturn
        obtain rfl := Option.some.inj hreturn
        refine h (.inr (.inr ?_))
        cases rest <;> simp_all
      · left
        have := List.length_pos_iff.2 hnil
        simp
        omega
    · exact hat

/-- Where a line ends, the column is behind the last character of the line. One place further on is
the line feed behind a carriage return. -/
theorem length_rowAt (h : EndsRow after) : columnAfter before - 1 =
    (rowAt before after).length +
      if before.getLast? = some '\r' ∧ after.head? = some '\n' then 1 else 0 := by
  rw [columnAfter_sub_one]
  rcases h with rfl | ⟨rest, rfl⟩ | ⟨rest, rfl⟩
  · simp [rowAt]
  · have hrow : rowAt before (['\n'] ++ rest) = dropReturn (before.rtakeWhile (· != '\n')) := by
      simp [rowAt]
    rw [hrow]
    rcases List.eq_nil_or_concat' before with rfl | ⟨cs, x, rfl⟩
    · rfl
    · by_cases hx : x = '\n'
      · simp [hx, dropReturn]
      · rw [List.rtakeWhile_concat_pos _ _ _ (by simpa using hx)]
        by_cases hreturn : x = '\r'
        · simp [hreturn, dropReturn_concat]
        · simp [hreturn, dropReturn_of_ne]
  · have hrow : rowAt before (['\r', '\n'] ++ rest) = before.rtakeWhile (· != '\n') := by
      simp [rowAt, dropReturn_concat]
    rw [hrow]
    simp

/-- A row does not go on behind a line feed. -/
theorem newline_notMem_rowAt (before after : List Char) : '\n' ∉ rowAt before after := by
  have hrow : '\n' ∉ before.rtakeWhile (· != '\n') ++ after.takeWhile (· != '\n') := by
    intro hmem
    rcases List.mem_append.1 hmem with h | h
    · simpa using List.mem_rtakeWhile_imp h
    · simpa using List.mem_takeWhile_imp h
  rw [rowAt]
  split
  · rw [dropReturn]
    split
    · exact fun hmem => hrow (List.dropLast_subset _ hmem)
    · exact hrow
  · exact hrow

end SearchQuery.Text
