import Mathlib.Data.List.Induction
import SearchQuery.Proofs.Reading.Memory

/-!
# The report of a log

A report depends on nothing but the failures noted in it: its place is that of the furthest failure,
and the items are those that failed there, each once and in the order they first failed.

Main statements: `Report.offset_furthest_noteAll` and `Report.expected_noteAll` describe the report
of a log, and `Economical.report_noted` is about the one that a recognizer keeps.
-/

namespace SearchQuery

namespace Report

variable {r : Report} {c : Cursor} {f : Failure} {log again : List Failure}

/-! ## The furthest place -/

/-- The furthest place is where one of the failures happened, if there was any further one. -/
theorem furthest_noteAll (r : Report) (log : List Failure) :
    (r.noteAll log).furthest = r.furthest ∨ ∃ f ∈ log, (r.noteAll log).furthest = f.place := by
  induction log using List.reverseRecOn with
  | nil => exact .inl rfl
  | append_singleton log f ih =>
    rw [noteAll_concat, note]
    split
    · exact .inr ⟨f, List.mem_concat_self, rfl⟩
    have hrest : ∀ place, (∃ g ∈ log, place = g.place) → ∃ g ∈ log ++ [f], place = g.place := by
      rintro place ⟨g, hg, heq⟩
      exact ⟨g, List.mem_append_left _ hg, heq⟩
    split <;> exact ih.imp_right (hrest _)

/-- No failure lies behind the furthest place. -/
theorem offset_le_furthest_noteAll (h : f ∈ log) :
    f.place.offset ≤ (r.noteAll log).furthest.offset := by
  rcases absorbs_noteAll (r := r) h with h | ⟨h, -⟩
  · exact Nat.le_of_lt h
  · exact Nat.le_of_eq h

/-- From the beginning of a text, the furthest place is that of a failure once there is one. -/
theorem exists_furthest (hc : c.offset = 0) (hlog : log ≠ []) :
    ∃ f ∈ log, f.place.offset = ((start c).noteAll log).furthest.offset := by
  rcases furthest_noteAll (start c) log with h | ⟨f, hf, h⟩
  · obtain ⟨f, hf⟩ := List.exists_mem_of_ne_nil _ hlog
    have hzero : ((start c).noteAll log).furthest.offset = 0 := by rw [h, start, hc]
    have hle := offset_le_furthest_noteAll (r := start c) hf
    exact ⟨f, hf, by omega⟩
  · exact ⟨f, hf, by rw [h]⟩

/-- The furthest place is the largest one of the log. -/
theorem offset_furthest_noteAll (hc : c.offset = 0) (log : List Failure) :
    ((start c).noteAll log).furthest.offset =
      (log.map fun f => f.place.offset).max?.getD 0 := by
  rcases eq_or_ne log [] with rfl | hlog
  · exact hc
  have hmax : (log.map fun f => f.place.offset).max? =
      some ((start c).noteAll log).furthest.offset := by
    refine List.max?_eq_some_iff.2 ⟨List.mem_map.2 (exists_furthest hc hlog), ?_⟩
    intro offset hoffset
    obtain ⟨f, hf, rfl⟩ := List.mem_map.1 hoffset
    exact offset_le_furthest_noteAll hf
  rw [hmax, Option.getD_some]

/-! ## The expected items -/

/-- The items that failed at an offset, each once and in the order they first failed. -/
def itemsAt (offset : Nat) (log : List Failure) : List Expected :=
  ((log.filter fun f => f.place.offset = offset).map Failure.expected).eraseDups

theorem mem_itemsAt {offset : Nat} {e : Expected} :
    e ∈ itemsAt offset log ↔ ∃ f ∈ log, f.expected = e ∧ f.place.offset = offset := by
  simp only [itemsAt, List.mem_eraseDups, List.mem_map, List.mem_filter, decide_eq_true_eq]
  grind

theorem itemsAt_concat_of_ne {offset : Nat} (h : f.place.offset ≠ offset) :
    itemsAt offset (log ++ [f]) = itemsAt offset log := by
  simp [itemsAt, h]

theorem itemsAt_concat {offset : Nat} (h : f.place.offset = offset) :
    itemsAt offset (log ++ [f]) = if f.expected ∈ itemsAt offset log then itemsAt offset log
      else itemsAt offset log ++ [f.expected] := by
  simp only [itemsAt, List.filter_append, List.map_append, List.eraseDups_append,
    List.mem_eraseDups, List.filter_singleton, h]
  split <;> simp [List.removeAll, List.eraseDups_cons, *]

/-- Behind all failures nothing has failed. -/
theorem itemsAt_of_lt {offset : Nat} (h : ∀ f ∈ log, f.place.offset < offset) :
    itemsAt offset log = [] := by
  refine List.eq_nil_iff_forall_not_mem.2 fun e he => ?_
  obtain ⟨f, hf, -, hoffset⟩ := mem_itemsAt.1 he
  exact absurd hoffset (Nat.ne_of_lt (h f hf))

/-- What is expected are the items that failed at the furthest place. -/
theorem expected_noteAll (hr : r.expected = []) (log : List Failure) :
    (r.noteAll log).expected = itemsAt (r.noteAll log).furthest.offset log := by
  induction log using List.reverseRecOn with
  | nil => exact hr
  | append_singleton log f ih =>
    rw [noteAll_concat]
    have hle : ∀ g ∈ log, g.place.offset ≤ (r.noteAll log).furthest.offset :=
      fun g hg => offset_le_furthest_noteAll hg
    generalize r.noteAll log = r' at ih hle ⊢
    -- The next failure lies before the furthest place, at it, or behind everything noted so far.
    rcases Nat.lt_trichotomy f.place.offset r'.furthest.offset with hlt | heq | hgt
    · rw [note_of_lt hlt, itemsAt_concat_of_ne (Nat.ne_of_lt hlt), ih]
    · rw [note, if_neg (by omega)]
      by_cases hmem : f.expected ∈ r'.expected
      · rw [if_neg (fun h => h.2 hmem), itemsAt_concat heq, ← ih, if_pos hmem]
      · rw [if_pos ⟨heq, hmem⟩, itemsAt_concat heq, ← ih, if_neg hmem]
    · have hnone := itemsAt_of_lt fun g hg => Nat.lt_of_le_of_lt (hle g hg) hgt
      rw [note, if_pos hgt, itemsAt_concat rfl, hnone]
      rfl

/-- What is expected failed at the furthest place. -/
theorem mem_expected_noteAll (hr : r.expected = []) {e : Expected}
    (he : e ∈ (r.noteAll log).expected) :
    ∃ f ∈ log, f.expected = e ∧ f.place.offset = (r.noteAll log).furthest.offset :=
  mem_itemsAt.1 (expected_noteAll hr log ▸ he)

/-- A report lists no item twice. -/
theorem nodup_noteAll (log : List Failure) (hr : r.expected.Nodup) :
    (r.noteAll log).expected.Nodup := by
  induction log generalizing r with
  | nil => exact hr
  | cons f log ih =>
    refine ih ?_
    rw [note]
    split
    · simp
    split
    · next h => exact List.nodup_append.2 ⟨hr, by simp, by grind⟩
    · exact hr

/-- Something is expected as soon as something has failed. -/
theorem expected_start_ne_nil (hc : c.offset = 0) (hlog : log ≠ []) :
    ((start c).noteAll log).expected ≠ [] := by
  obtain ⟨f, hf, hoffset⟩ := exists_furthest hc hlog
  rw [expected_noteAll rfl]
  exact List.ne_nil_of_mem (mem_itemsAt.2 ⟨f, hf, rfl, hoffset⟩)

/-- Failures of the log can be noted again at any later time. -/
theorem noteAll_again (hagain : again ⊆ log) (later : List Failure) :
    r.noteAll (log ++ later ++ again) = r.noteAll (log ++ later) := by
  rw [noteAll, List.foldl_append]
  exact noteAll_of_absorbs fun f hf => absorbs_noteAll (List.mem_append_left _ (hagain hf))

end Report

/-! ## The report of a recognizer -/

namespace Economical

def noted (st : Economical) (log : List Failure) : Economical :=
  log.foldl (fun st f => st.note f) st

theorem report_noted_eq (st : Economical) (log : List Failure) :
    (st.noted log).report = st.report.noteAll log := by
  induction log generalizing st with
  | nil => rfl
  | cons f log ih => exact ih (st.note f)

/-- Whatever fails and in whatever order, the report has the furthest place of failure, which is the
beginning if nothing has failed, and the items that failed there, each once and in the order they
first failed. What has failed before can fail again at any later time without changing the report,
and something is expected unless nothing has failed. -/
theorem report_noted (s : String) (log : List Failure) :
    let report := ((initial s).noted log).report
    report.furthest.offset = (log.map fun f => f.place.offset).max?.getD 0 ∧
      report.expected = Report.itemsAt report.furthest.offset log ∧
      (∀ again later, again ⊆ log →
        ((initial s).noted (log ++ later ++ again)).report =
          ((initial s).noted (log ++ later)).report) ∧
      (report.expected = [] ↔ log = []) := by
  simp only [report_noted_eq]
  refine ⟨Report.offset_furthest_noteAll rfl log, Report.expected_noteAll rfl log, ?_, ?_, ?_⟩
  · exact fun again later hagain => Report.noteAll_again hagain later
  · exact fun h => by_contra fun hlog => Report.expected_start_ne_nil rfl hlog h
  · rintro rfl
    rfl

end Economical

end SearchQuery
