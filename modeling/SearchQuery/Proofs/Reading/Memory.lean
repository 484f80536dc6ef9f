import SearchQuery.Proofs.Reading.Place
import SearchQuery.Proofs.Reading.Report
import SearchQuery.Proofs.Reading.SameText

/-!
# A memory changes nothing

The economical recognizer remembers what it has read. Using the memory skips all failures of the
reading that is not repeated, and none is missed, because the report has absorbed them before.

## Main definitions

* `Economical.Sound` — the memory holds what reading afresh would give.
* `Economical.moments` — all states that a reading goes through.
-/

namespace SearchQuery

open Recognizer Correspondence

/-! ## Reading afresh with a log and with a report -/

def Exhaustive.at (c : Cursor) : Option ParseTree × List Failure := recognizer.logicalAt c []

theorem Forgetful.logicalAt_eq (c : Cursor) :
    recognizer.logicalAt c = Recognizer.logicalAlternatives ⟨fun f r => r.note f,
      fun d => if d.remaining < c.remaining then recognizer.logicalAt d else failure⟩ c :=
  afreshAt.eq_1 _ c

/-- Keeping a report is the same as keeping all failures and adding them up in the end. -/
theorem Forgetful.logicalAt_apply (c : Cursor) (r : Report) :
    recognizer.logicalAt c r = ((Exhaustive.at c).1, r.noteAll (Exhaustive.at c).2) := by
  let K := same (fun f r => r.note f) (fun f log => log ++ [f])
    (fun (r' : Report) log => r' = r.noteAll log) fun _ => True
  have h : K.Follows (recognizer.logicalAt c) (Exhaustive.recognizer.logicalAt c) :=
    same_afreshAt (fun _ _ => id) (fun f _ _ _ h => by rw [h, Report.noteAll_concat]) trivial
  obtain ⟨hfound, hreport, -⟩ := agree_same_iff.1 (h r [] rfl)
  exact Prod.ext hfound hreport

namespace Economical

/-! ## Sound memories -/

/-- Whatever is remembered at a place of `s` is what reading afresh finds there, and the report has
absorbed all failures of reading afresh. -/
def Sound (s : String) (st : Economical) : Prop :=
  ∀ c found, c.Within s → st.known[c.offset]? = some found →
    (∀ r, (Forgetful.recognizer.logicalAt c r).1 = found) ∧
      ∀ f ∈ (Exhaustive.at c).2, st.report.Absorbs f

variable {s : String} {st : Economical}

theorem Sound.empty (r : Report) : Sound s ⟨r, {}⟩ := by
  intro c found _ h
  simp at h

/-- A failure leaves what is remembered as it is. -/
theorem Sound.note (h : st.Sound s) (f : Failure) : (st.note f).Sound s := by
  intro c found hc hknown
  obtain ⟨hfound, habsorbs⟩ := h c found hc hknown
  exact ⟨hfound, fun g hg => (habsorbs g hg).note⟩

/-- From a sound memory, nothing but the time of reading afresh is saved. -/
theorem Sound.logicalAt_forgetful (h : st.Sound s) {c : Cursor} {found : Option ParseTree}
    (hc : c.Within s) (hknown : st.known[c.offset]? = some found) :
    Forgetful.recognizer.logicalAt c st.report = (found, st.report) := by
  obtain ⟨hfound, habsorbs⟩ := h c found hc hknown
  have hreport := Report.noteAll_of_absorbs habsorbs
  rw [Forgetful.logicalAt_apply, hreport, ← hfound st.report, Forgetful.logicalAt_apply]

/-- What was just read afresh may be remembered. -/
theorem Sound.remember (h : st.Sound s) {c : Cursor} (hc : c.Within s) {found : Option ParseTree}
    {r : Report} (hread : Forgetful.recognizer.logicalAt c r = (found, st.report)) :
    (st.remember c.offset found).Sound s := by
  intro d found' hd hknown
  rw [Forgetful.logicalAt_apply, Prod.mk.injEq] at hread
  obtain ⟨rfl, hreport⟩ := hread
  simp only [Economical.remember, Std.TreeMap.getElem?_insert] at hknown
  split at hknown
  · next heq =>
    obtain rfl : c = d := hc.eq_of_offset hd (by simpa using heq)
    obtain rfl := Option.some.inj hknown
    refine ⟨fun r' => by rw [Forgetful.logicalAt_apply], fun f hf => ?_⟩
    change st.report.Absorbs f
    rw [← hreport]
    exact Report.absorbs_noteAll hf
  · exact h d found' hd hknown

/-! ## All states of a reading -/

abbrev History := Economical × List Economical

def History.next (h : History) (st : Economical) : History := (st, h.1 :: h.2)

/-- Reads a `LogicalExp` that begins at `c` with a memory, and keeps all states. -/
def watchedAt (c : Cursor) : Attempt History ParseTree := fun h =>
  match h.1.known[c.offset]? with
  | some found => (found, h)
  | none =>
    let (found, h) := Recognizer.logicalAlternatives ⟨fun f h => h.next (h.1.note f),
      fun d => if _h : d.remaining < c.remaining then watchedAt d else failure⟩ c h
    (found, h.next (h.1.remember c.offset found))
termination_by c.remaining

def watched : Recognizer History := ⟨fun f h => h.next (h.1.note f), watchedAt⟩

def initial (s : String) : Economical := ⟨.start (.start s), {}⟩

/-- All states that reading `s` goes through, the latest first. -/
def moments (s : String) : List Economical :=
  let (st, before) := (watched.whole (.start s) (initial s, [])).2
  st :: before

/-! ## Three readings -/

abbrev Latest (st : Economical) (h : History) : Prop := h.1 = st

/-- What ties reading afresh to reading with a memory: the report, and that all states so far have
been sound. -/
def Faithful (s : String) (r : Report) (h : History) : Prop :=
  h.1.report = r ∧ ∀ st ∈ h.1 :: h.2, st.Sound s

theorem latest_note (f : Failure) (st : Economical) (h : History) (hst : Latest st h) :
    Latest (st.note f) (watched.note f h) :=
  congrArg (note f) hst

theorem faithful_next {r : Report} {h : History} {st : Economical} (hr : Faithful s r h)
    (hst : st.Sound s) : Faithful s st.report (h.next st) := by
  refine ⟨rfl, fun st' hst' => ?_⟩
  rcases List.mem_cons.1 hst' with rfl | hst'
  · exact hst
  · exact hr.2 st' hst'

theorem faithful_note (f : Failure) (r : Report) (h : History) (hr : Faithful s r h) :
    Faithful s (r.note f) (watched.note f h) := by
  have hnow := (hr.2 h.1 List.mem_cons_self).note f
  exact hr.1 ▸ faithful_next hr hnow

/-- Watching does not interfere. -/
theorem logicalAt_watched (c : Cursor) :
    (same note watched.note Latest fun _ => True).Follows (logicalAt c) (watchedAt c) := by
  induction hn : c.remaining using Nat.strongRecOn generalizing c with
  | ind n ih =>
    subst hn
    rintro _ h rfl
    rw [logicalAt, watchedAt]
    cases hknown : h.1.known[c.offset]? with
    | some found => exact agree_same_iff.2 ⟨rfl, rfl, fun _ _ => trivial⟩
    | none =>
      have hround := same_round (P := fun _ => True) (fun _ _ => id)
        (fun f st h _ => latest_note f st h) trivial (fun d hlt _ => ih _ hlt d rfl)
      obtain ⟨hfound, hstate, -⟩ := agree_same_iff.1 (hround h.1 h rfl)
      simp only [dite_eq_ite]
      refine agree_same_iff.2 ⟨hfound, ?_, fun _ _ => trivial⟩
      exact congrArg₂ (fun st found => remember st c.offset found) hstate hfound.symm

/-- A reading with a memory goes through sound states only, and it finds and reports what reading
afresh does. -/
theorem logicalAt_faithful {c : Cursor} (hc : c.Within s) :
    (same (fun f r => r.note f) watched.note (Faithful s) (Cursor.Within s)).Follows
      (Forgetful.recognizer.logicalAt c) (watchedAt c) := by
  induction hn : c.remaining using Nat.strongRecOn generalizing c with
  | ind n ih =>
    subst hn
    intro r h hr
    have hround := same_round (fun _ n hc => hc.advance n) (fun f r h _ => faithful_note f r h) hc
      (fun d hlt hd => ih _ hlt hd rfl) r h hr
    rw [← Forgetful.logicalAt_eq] at hround
    rw [watchedAt]
    cases hknown : h.1.known[c.offset]? with
    | some found =>
      have hread := (hr.2 h.1 List.mem_cons_self).logicalAt_forgetful hc hknown
      rw [hr.1] at hread
      rw [hread] at hround ⊢
      obtain ⟨-, -, hstop⟩ := agree_same_iff.1 hround
      exact agree_same_iff.2 ⟨rfl, hr, hstop⟩
    | none =>
      simp only [dite_eq_ite]
      obtain ⟨hfound, hfaithful, hstop⟩ := agree_same_iff.1 hround
      refine agree_same_iff.2 ⟨hfound, ?_, hstop⟩
      have hnow := hfaithful.2 _ List.mem_cons_self
      have hsound := hnow.remember hc (Prod.ext hfound hfaithful.1.symm)
      exact hfaithful.1 ▸ faithful_next hfaithful hsound

/-- The last of the moments is the state in which the reading ends. -/
theorem whole_watched (s : String) (st : Economical) :
    (watched.whole (.start s) (st, [])).1 = (recognizer.whole (.start s) st).1 ∧
      (watched.whole (.start s) (st, [])).2.1 = (recognizer.whole (.start s) st).2 := by
  have hwhole := same_whole (P := fun _ => True) (fun _ _ => id)
    (fun f st h _ => latest_note f st h) (fun c _ => logicalAt_watched c) (c := .start s) trivial
  obtain ⟨hfound, hlatest, -⟩ := agree_same_iff.1 (hwhole st (st, []) rfl)
  exact ⟨hfound.symm, hlatest⟩

/-- With a memory, reading a text finds what reading it afresh finds, and all states on the way are
sound. -/
theorem whole_faithful (s : String) (r : Report) :
    (Forgetful.recognizer.whole (.start s) r).1 =
        (watched.whole (.start s) (⟨r, {}⟩, [])).1 ∧
      Faithful s (Forgetful.recognizer.whole (.start s) r).2
        (watched.whole (.start s) (⟨r, {}⟩, [])).2 := by
  have hstart : Faithful s r (⟨r, {}⟩, []) := by
    refine ⟨rfl, fun st hst => ?_⟩
    rw [List.mem_singleton.1 hst]
    exact .empty r
  have hwhole := same_whole (fun _ n hc => hc.advance n) (fun f r h _ => faithful_note f r h)
    (fun _ hc => logicalAt_faithful hc) (Cursor.within_start s)
  obtain ⟨hfound, hfaithful, -⟩ := agree_same_iff.1 (hwhole r (⟨r, {}⟩, []) hstart)
  exact ⟨hfound, hfaithful⟩

/-- A memory changes neither the tree nor the report. -/
theorem recognize_eq (s : String) : Economical.recognize s = Forgetful.recognize s := by
  obtain ⟨hfound, hlatest⟩ := whole_watched s (initial s)
  obtain ⟨hfound', hreport, -⟩ := whole_faithful s (.start (.start s))
  change _ = (watched.whole (.start s) (initial s, [])).1 at hfound'
  change (watched.whole (.start s) (initial s, [])).2.1.report = _ at hreport
  unfold Economical.recognize Forgetful.recognize
  rw [hfound] at hfound'
  rw [hlatest] at hreport
  obtain ⟨found, st, heco⟩ : ∃ found st, recognizer.whole (.start s) (initial s) = (found, st) :=
    ⟨_, _, rfl⟩
  have heco' : recognizer.whole (.start s) ⟨.start (.start s), {}⟩ = (found, st) := heco
  rcases hfor : Forgetful.recognizer.whole (.start s) (.start (.start s)) with ⟨found', r⟩
  rw [heco']
  rw [heco, hfor] at hfound' hreport
  obtain rfl : found' = found := hfound'
  obtain rfl : st.report = r := hreport
  cases found' <;> rfl

/-- At every moment of a reading, from the first state to the last, everything that is remembered is
what reading afresh would find, and all failures of reading it afresh have been absorbed. So the
outcome is that of reading afresh. -/
theorem recognize_eq_forgetful (s : String) :
    Economical.recognize s = Forgetful.recognize s ∧
      (moments s).head? = some (recognizer.whole (.start s) (initial s)).2 ∧
      ∀ st ∈ moments s, st.Sound s := by
  have hlatest := (whole_watched s (initial s)).2
  have hsound := (whole_faithful s (.start (.start s))).2.2
  exact ⟨recognize_eq s, congrArg some hlatest, hsound⟩

end Economical

end SearchQuery
