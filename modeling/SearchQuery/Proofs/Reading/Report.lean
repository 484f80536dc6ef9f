import SearchQuery.Syntax.Failure

/-!
# Reports of many failures

A report is a function of the failures noted in it. A failure that it has absorbed can be noted
again at any later time without changing anything.

## Main definitions

* `Report.Absorbs` — noting a failure would change nothing.
* `Report.noteAll` — the report after several failures in order.
-/

namespace SearchQuery.Report

/-- The failure lies before the furthest place, or is in the report. -/
def Absorbs (r : Report) (f : Failure) : Prop :=
  f.place.offset < r.furthest.offset ∨
    f.place.offset = r.furthest.offset ∧ f.expected ∈ r.expected

def noteAll (r : Report) (log : List Failure) : Report := log.foldl note r

variable {r : Report} {f g : Failure} {log : List Failure}

@[simp] theorem noteAll_nil : r.noteAll [] = r := rfl

@[simp] theorem noteAll_concat : r.noteAll (log ++ [f]) = (r.noteAll log).note f := by
  simp [noteAll]

/-- A failure that is absorbed changes nothing. -/
theorem note_of_absorbs (h : r.Absorbs f) : r.note f = r := by
  grind [note, Absorbs]

theorem absorbs_note_self : (r.note f).Absorbs f := by
  grind [note, Absorbs]

theorem Absorbs.note (h : r.Absorbs f) : (r.note g).Absorbs f := by
  grind [Report.note, Absorbs]

theorem Absorbs.noteAll (h : r.Absorbs f) : (r.noteAll log).Absorbs f := by
  induction log generalizing r with
  | nil => exact h
  | cons g log ih => exact ih h.note

/-- All failures that were added are absorbed. -/
theorem absorbs_noteAll (h : f ∈ log) : (r.noteAll log).Absorbs f := by
  induction log generalizing r with
  | nil => contradiction
  | cons g log ih =>
    rcases List.mem_cons.1 h with rfl | h
    · exact absorbs_note_self.noteAll
    · exact ih h

/-- Failures that have been absorbed leave the report as it is. -/
theorem noteAll_of_absorbs (h : ∀ f ∈ log, r.Absorbs f) : r.noteAll log = r := by
  induction log with
  | nil => rfl
  | cons g log ih =>
    have hg := note_of_absorbs (h g List.mem_cons_self)
    have hlog := ih fun f hf => h f (List.mem_cons_of_mem g hf)
    rwa [noteAll, List.foldl_cons, hg]

end SearchQuery.Report
