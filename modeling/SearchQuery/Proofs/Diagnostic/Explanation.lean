import SearchQuery.Proofs.Reading.Elsewhere
import SearchQuery.Proofs.Reading.Log
import SearchQuery.Proofs.Reading.Way
import SearchQuery.Semantics.Basic

/-!
# Queries that fail

A syntax error is made from the report that the economical recognizer keeps. It says the same as the
log of all failures: where the furthest of them happened, and what was looked for there.

## Main definitions

* `Accepted` — a text that is read.
* `SyntaxError.Explains` — what an error has to do with the texts that are read.

Main statement: `exists_explains` says that every error explains the query it is about.
-/

namespace SearchQuery

open Text

def Accepted (cs : List Char) : Prop := ∃ tree, ParseTree.ofQuery (String.ofList cs) = .ok tree

/-! ## Queries that are read -/

theorem Forgetful.recognize_ok_iff (s : String) :
    (∃ tree, recognize s = .ok tree) ↔
      ∃ es, afterExp s.toList = some es ∧ afterBlanks es = [] := by
  have hread := rest_exp recognizer.note (.start s) (.start (.start s))
  change ((recognizer.exp _ _).1.map (·.stop.rest)) = afterExp s.toList at hread
  rw [recognize, Recognizer.whole, Attempt.bind_apply, ← hread]
  rcases recognizer.exp (.start s) (.start (.start s)) with ⟨_ | root, r⟩
  · simp
  · have hend : root.stop.skipBlanks.atEnd = true ↔ afterBlanks root.stop.rest = [] := by
      rw [Cursor.atEnd, List.isEmpty_iff, Cursor.rest_skipBlanks, afterBlanks]
    by_cases h : root.stop.skipBlanks.atEnd = true
    · simp [h, hend.1 h]
    · simp [h, Recognizer.miss, mt hend.2 h]

/-- A text is a query exactly if it begins with an expression and goes on with blanks only. -/
theorem accepted_iff (cs : List Char) :
    Accepted cs ↔ ∃ es, afterExp cs = some es ∧ afterBlanks es = [] := by
  have hread := Forgetful.recognize_ok_iff (String.ofList cs)
  rw [String.toList_ofList] at hread
  rw [← hread, Accepted, ParseTree.ofQuery, Economical.recognize_eq]
  cases Forgetful.recognize (String.ofList cs) <;> simp

theorem exists_error {cs : List Char} (h : ¬ Accepted cs) :
    ∃ err, ParseTree.ofQuery (String.ofList cs) = .error err := by
  cases hq : ParseTree.ofQuery (String.ofList cs) with
  | ok tree => exact absurd ⟨tree, hq⟩ h
  | error err => exact ⟨err, rfl⟩

/-- What can be completed to an expression can be completed to a query. -/
theorem accepted_of_completable {cs : List Char} (h : Completable cs) :
    ∃ ds, Accepted (cs ++ ds) := by
  obtain ⟨ds, hds⟩ := h
  refine ⟨ds, (accepted_iff _).2 ⟨[], ?_, rfl⟩⟩
  simpa using hds [] .nil

/-! ## The log of a query that fails -/

/-- A reading that finds nothing has failed somewhere. -/
theorem Exhaustive.log_ne_nil {c : Cursor} {log : List Failure}
    (h : recognizer.whole c [] = (none, log)) : log ≠ [] := by
  rw [Recognizer.whole, Attempt.bind_apply] at h
  rcases hexp : recognizer.exp c [] with ⟨_ | root, log'⟩ <;> rw [hexp] at h
  · obtain rfl : log' = log := congrArg Prod.snd h
    rw [Recognizer.exp, Attempt.bind_apply] at hexp
    rcases hread : recognizer.logicalExp c [] with ⟨_ | inner, log''⟩ <;> rw [hread] at hexp
    · obtain rfl : log'' = log' := congrArg Prod.snd hexp
      obtain ⟨log₀, rfl⟩ := Recognizer.afreshAt_eq_none hread
      simp
    · simp at hexp
  · dsimp only at h
    split at h
    · simp at h
    · obtain rfl : log' ++ [_] = log := congrArg Prod.snd h
      simp

/-- The report on a text that is no query is made of the failures of reading it afresh. -/
theorem Forgetful.exists_log {s : String} {r : Report} (h : recognize s = .error r) :
    ∃ log, Exhaustive.recognize s = (none, log) ∧ r = (Report.start (.start s)).noteAll log ∧
      ∀ f ∈ log, f.place.Within s := by
  let states (r : Report) (log : List Failure) : Prop :=
    r = (Report.start (.start s)).noteAll log ∧ ∀ f ∈ log, f.place.Within s
  have hnote (f : Failure) (r : Report) (log : List Failure) (hf : f.place.Within s)
      (hst : states r log) : states (r.note f) (log ++ [f]) := by
    refine ⟨by rw [hst.1, Report.noteAll_concat], fun g hg => ?_⟩
    rcases List.mem_append.1 hg with hg | hg
    · exact hst.2 g hg
    · rwa [List.mem_singleton.1 hg]
  have hwhole := Correspondence.same_whole (fun _ n hc => hc.advance n) hnote
    (fun c hc => Correspondence.same_afreshAt (fun _ _ hc => hc.advance _) hnote hc)
    (Cursor.within_start s)
  obtain ⟨hfound, hstates, -⟩ := Correspondence.agree_same_iff.1
    (hwhole (.start (.start s)) [] ⟨rfl, nofun⟩)
  change (recognizer.whole (.start s) (.start (.start s))).1 = (Exhaustive.recognize s).1 at hfound
  change states (recognizer.whole (.start s) (.start (.start s))).2 (Exhaustive.recognize s).2
    at hstates
  rw [recognize] at h
  rcases hfor : recognizer.whole (.start s) (.start (.start s)) with ⟨_ | tree, r'⟩
  · rw [hfor] at h hfound hstates
    obtain rfl := Except.error.inj h
    exact ⟨(Exhaustive.recognize s).2, Prod.ext hfound.symm rfl, hstates⟩
  · simp [hfor] at h

/-! ## Errors -/

/-- What the error `e` has to do with the texts that are read. -/
structure SyntaxError.Explains (s : String) (e : SyntaxError) : Prop where
  input : e.before ++ e.after = s.toList
  expected_ne_nil : e.expected ≠ []
  nodup : e.expected.Nodup
  viable : ∀ item ∈ e.expected, Exhaustive.Viable e.before e.after item
  complete : ∀ ws, Joins e.after ws → Accepted (e.before ++ ws) →
    ∃ item ∈ e.expected, item.Heads (afterBlanks ws)

section Noted

variable {s : String} {log : List Failure} (hwithin : ∀ f ∈ log, f.place.Within s)

include hwithin

theorem within_furthest : ((Report.start (.start s)).noteAll log).furthest.Within s := by
  rcases Report.furthest_noteAll (.start (.start s)) log with h | ⟨f, hf, h⟩
  · exact h ▸ Cursor.within_start s
  · exact h ▸ hwithin f hf

/-- An error made from a log cuts the query in two. -/
theorem input_ofReport :
    (SyntaxError.ofReport s ((Report.start (.start s)).noteAll log)).input = s.toList := by
  obtain ⟨n, hn⟩ := within_furthest hwithin
  rw [SyntaxError.input, SyntaxError.ofReport, hn, Cursor.upTo_advance, Cursor.rest_advance,
    List.take_append_drop]
  rfl

/-- What holds of all failures in a query holds of what is expected where the query fails. -/
theorem of_mem_expected {P : List Char → List Char → Expected → Prop}
    (hnotes : (Exhaustive.recognizer.whole (.start s)).Notes fun f =>
      ∃ us, s.toList = us ++ f.place.rest ∧ P us f.place.rest f.expected)
    (hlog : Exhaustive.recognize s = (none, log)) :
    let e := SyntaxError.ofReport s ((Report.start (.start s)).noteAll log)
    ∀ item ∈ e.expected, P e.before e.after item := by
  intro e item hitem
  obtain ⟨f, hf, rfl, hoffset⟩ := Report.mem_expected_noteAll rfl hitem
  have hafter : e.after = f.place.rest :=
    congrArg Cursor.rest ((hwithin f hf).eq_of_offset (within_furthest hwithin) hoffset).symm
  have hnoted := hnotes [] f
  rw [show Exhaustive.recognizer.whole (.start s) [] = (none, log) from hlog] at hnoted
  rcases hnoted hf with hf | ⟨us, hus, h⟩
  · contradiction
  · have hinput : e.before ++ e.after = s.toList := input_ofReport hwithin
    rw [hafter, hus] at hinput
    rwa [hafter, List.append_cancel_right hinput]

/-- The error made from a log explains the query. -/
theorem explains_ofReport (hlog : Exhaustive.recognize s = (none, log)) :
    (SyntaxError.ofReport s ((Report.start (.start s)).noteAll log)).Explains s := by
  have hne := Report.expected_start_ne_nil (c := .start s) rfl (Exhaustive.log_ne_nil hlog)
  have hnodup := Report.nodup_noteAll log (r := .start (.start s)) List.nodup_nil
  have habsorbs (f : Failure) (hf : f ∈ log) :
      ((Report.start (.start s)).noteAll log).Absorbs f :=
    Report.absorbs_noteAll hf
  have hr := within_furthest hwithin
  have hsplit := input_ofReport hwithin
  have hviable := of_mem_expected hwithin (Exhaustive.whole_notes (.start s)) hlog
  rw [SyntaxError.input] at hsplit
  unfold SyntaxError.ofReport at hviable hsplit ⊢
  generalize (Report.start (.start s)).noteAll log = r at *
  refine ⟨hsplit, hne, hnodup, hviable, fun ws hjoins haccepted => ?_⟩
  by_contra hheads
  obtain ⟨es, hes, hend⟩ := (accepted_iff _).1 haccepted
  obtain ⟨item, hitem⟩ := List.exists_mem_of_ne_nil _ hne
  have hrest := (hviable item hitem).blanks
  refine Exhaustive.whole_elsewhere hlog hsplit.symm hrest hjoins ?_ ?_ hes hend
  · intro f hf
    refine Nat.le_of_not_lt fun hlt => ?_
    have := (hr.offset_lt_iff (hwithin f hf)).2 hlt
    rcases habsorbs f hf with h | ⟨h, -⟩ <;> omega
  · intro f hf hedge hmatches
    rcases habsorbs f hf with h | ⟨-, hexpected⟩
    · have : r.furthest.remaining < f.place.remaining :=
        ((hwithin f hf).offset_lt_iff hr).1 h
      exact absurd hedge (Nat.ne_of_gt this)
    · exact hheads ⟨_, hexpected, hmatches⟩

end Noted

/-- The error of a query that is not read is made from the log of all failures. -/
theorem exists_log {s : String} {err : QueryError} (h : ParseTree.ofQuery s = .error err) :
    ∃ log, Exhaustive.recognize s = (none, log) ∧ (∀ f ∈ log, f.place.Within s) ∧
      err = .malformed (.ofReport s ((Report.start (.start s)).noteAll log)) := by
  rw [ParseTree.ofQuery, Economical.recognize_eq] at h
  cases hread : Forgetful.recognize s with
  | ok tree => simp [hread] at h
  | error r =>
    rw [hread] at h
    obtain rfl := Except.error.inj h
    obtain ⟨log, hlog, rfl, hwithin⟩ := Forgetful.exists_log hread
    exact ⟨log, hlog, hwithin, rfl⟩

/-- A query that is not read is explained by the error. -/
theorem exists_explains {s : String} {err : QueryError} (h : ParseTree.ofQuery s = .error err) :
    ∃ e, err = .malformed e ∧ e.Explains s := by
  obtain ⟨log, hlog, hwithin, rfl⟩ := exists_log h
  exact ⟨_, rfl, explains_ofReport hwithin hlog⟩

end SearchQuery
