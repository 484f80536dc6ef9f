import SearchQuery.Proofs.Reading.Memory
import SearchQuery.Proofs.Reading.Remainder
import SearchQuery.Semantics.Basic

/-!
# Productions with a memory

The productions of all categories find the same trees with a memory as without any state, at every
moment of a reading and wherever they are called.

## Main definitions

* `Recognizer.production` — the production of a category.

Main statements: `Economical.production_eq_silent`, and `ParseTree.ofQuery_eq_ok_iff` for whole
queries.
-/

namespace SearchQuery

open Recognizer Correspondence

namespace Recognizer

variable {σ : Type}

/-- Reads a text of the category. An operand is looked for behind blanks, like an expression. A
filter has to begin exactly at the cursor, since an operand has skipped the blanks before it. -/
def production (R : Recognizer σ) : (k : Category) → (c : Cursor) → Attempt σ ParseTree
  | .exp, c => R.exp c
  | .logicalExp, c => R.logicalExp c
  | .priExp, c => R.priExp c.skipBlanks
  | .keywordExp, c => keywordExp R.note c
  | .spacedString, c => spacedString R.note c
  | .ident, c => ident R.note c
  | .spaces, c => pure (.leaf .spaces c c.skipBlanks)

/-- Every text but blanks has at least one character. -/
theorem production_yields {R : Recognizer σ} (hR : R.Advances) {k : Category} (hk : k ≠ .spaces)
    (c : Cursor) : (R.production k c).Yields fun t => t.stop.remaining < c.remaining := by
  cases k with
  | exp => exact exp_yields hR c
  | logicalExp => exact logicalExp_yields hR c
  | priExp =>
    exact (priExp_yields hR _).mono fun _ ht =>
      Nat.lt_of_lt_of_le ht (Cursor.remaining_skipBlanks_le c)
  | keywordExp => exact keywordExp_yields c
  | spacedString => exact spacedString_yields c
  | ident => exact ident_yields c
  | spaces => contradiction

end Recognizer

namespace Correspondence

variable {σ τ : Type} {noteLeft : Failure → σ → σ} {noteRight : Failure → τ → τ} {S : σ → τ → Prop}
  {P : Cursor → Prop}

/-- Readings of one text agree in all productions if they agree in a `LogicalExp`. -/
theorem same_production (hP : ∀ c n, P c → P (c.advance n))
    (hS : ∀ f s t, P f.place → S s t → S (noteLeft f s) (noteRight f t))
    {L : Cursor → Attempt σ ParseTree} {R : Cursor → Attempt τ ParseTree}
    (hLR : ∀ c, P c → (same noteLeft noteRight S P).Follows (L c) (R c)) (k : Category) {c : Cursor}
    (hc : P c) :
    (same noteLeft noteRight S P).Follows (Recognizer.production ⟨noteLeft, L⟩ k c)
      (Recognizer.production ⟨noteRight, R⟩ k c) := by
  have hK := same_lawful hP hS
  have hat : ∀ c d, (same noteLeft noteRight S P).facing c d →
      (same noteLeft noteRight S P).Follows (L c) (R d) := by
    rintro c _ ⟨rfl, hc⟩
    exact hLR c hc
  have hexp := fun c d => hK.logicalExp_follows hat (c := c) (d := d)
  have hplace : (same noteLeft noteRight S P).places c c := ⟨rfl, hc⟩
  cases k with
  | exp => exact hK.exp_follows hexp hplace
  | logicalExp => exact hexp c c hplace
  | priExp => exact hK.priExp_follows (fun d => same_escapes d _) hexp (hK.skip hplace)
  | keywordExp => exact hK.keywordExp_follows hplace
  | spacedString => exact hK.spacedString_follows hplace
  | ident => exact hK.ident hplace
  | spaces => exact .pure (hK.spaces hplace)

end Correspondence

/-! ## Trees without a state -/

/-- Keeping a report does not matter for what is found. -/
theorem Forgetful.logicalAt_follows_silent (c : Cursor) :
    (same recognizer.note silent.note (fun _ _ => True) fun _ => True).Follows
      (recognizer.logicalAt c) (silent.logicalAt c) :=
  same_afreshAt (fun _ _ => id) (fun _ _ _ _ _ => trivial) trivial

theorem Forgetful.production_eq_silent (k : Category) (c : Cursor) (r : Report) :
    (recognizer.production k c r).1 = (silent.production k c).found :=
  (agree_same_iff.1 <| same_production (fun _ _ => id) (fun _ _ _ _ _ => trivial)
    (fun c _ => logicalAt_follows_silent c) k trivial r () trivial).1

theorem Forgetful.whole_eq_silent (s : String) (r : Report) :
    (recognizer.whole (.start s) r).1 = (silent.whole (.start s)).found :=
  (agree_same_iff.1 <| same_whole (fun _ _ => id) (fun _ _ _ _ _ => trivial)
    (fun c _ => logicalAt_follows_silent c) trivial r () trivial).1

/-- A whole query is an expression with nothing but blanks behind it. -/
theorem found_whole {c : Cursor} {t : ParseTree} :
    (silent.whole c).found = some t ↔
      (silent.exp c).found = some t ∧ t.stop.skipBlanks.atEnd := by
  rw [whole, Attempt.found_bind]
  cases (silent.exp c).found with
  | none => simp
  | some root =>
    rw [Option.bind_some]
    by_cases hend : root.stop.skipBlanks.atEnd
    · rw [if_pos hend]
      exact ⟨fun h => ⟨h, Option.some.inj h ▸ hend⟩, fun h => h.1⟩
    · rw [if_neg hend]
      exact ⟨nofun, fun h => absurd (Option.some.inj h.1 ▸ h.2) hend⟩

/-- The tree of a query is what is found without any state. -/
theorem ParseTree.ofQuery_eq_ok_iff {s : String} {t : ParseTree} :
    ofQuery s = .ok t ↔ (silent.whole (.start s)).found = some t := by
  rw [← Forgetful.whole_eq_silent s (.start (.start s)), ofQuery, Economical.recognize_eq,
    Forgetful.recognize]
  rcases Forgetful.recognizer.whole (.start s) (.start (.start s)) with ⟨_ | tree, r⟩ <;> simp

/-! ## Trees with a memory -/

namespace Economical

variable {s : String} {st : Economical}

def Reports (s : String) (st : Economical) (r : Report) : Prop := st.report = r ∧ st.Sound s

/-- With a sound memory, a `LogicalExp` is read as with the report alone. -/
theorem logicalAt_follows_forgetful {c : Cursor} (hc : c.Within s) :
    (same note Forgetful.recognizer.note (Reports s) (Cursor.Within s)).Follows (logicalAt c)
      (Forgetful.recognizer.logicalAt c) := by
  rintro st r ⟨hreport, hsound⟩
  have hfaithful : Faithful s r (st, []) := ⟨hreport, by simpa using hsound⟩
  obtain ⟨hfound, hafter, hstop⟩ := agree_same_iff.1 (logicalAt_faithful hc r (st, []) hfaithful)
  obtain ⟨hwatched, hlatest, -⟩ := agree_same_iff.1 (logicalAt_watched c st (st, []) rfl)
  refine agree_same_iff.2 ⟨hwatched.trans hfound.symm, ⟨?_, ?_⟩, fun t ht => hstop t ?_⟩
  · rw [← hafter.1, hlatest]
  · exact hlatest ▸ hafter.2 _ List.mem_cons_self
  · rw [← ht, hwatched, hfound]

/-- With a sound memory, every production finds what it finds without a state. -/
theorem production_eq_silent (hst : st.Sound s) (k : Category) {c : Cursor} (hc : c.Within s) :
    (recognizer.production k c st).1 = (silent.production k c).found := by
  have hread := same_production (S := Reports s) (fun _ n hc => hc.advance n)
    (fun f _ _ _ h => ⟨congrArg (Report.note · f) h.1, h.2.note f⟩)
    (fun _ hc => logicalAt_follows_forgetful hc) k hc
  obtain ⟨hfound, -, -⟩ := agree_same_iff.1 (hread st st.report ⟨rfl, hst⟩)
  exact hfound.trans (Forgetful.production_eq_silent k c st.report)

theorem sound_initial (s : String) : (initial s).Sound s := .empty _

/-- All states that reading a text goes through are sound. -/
theorem sound_of_mem_moments (hst : st ∈ moments s) : st.Sound s :=
  (whole_faithful s (.start (.start s))).2.2 st hst

end Economical

end SearchQuery
