import SearchQuery.Proofs.Reading.Lawful

/-!
# Readings of one text

Readings of one text that differ only in what they keep of the failures find the same trees, and
whatever relates their states is kept if the notes keep it.

## Main definitions

* `Correspondence.same` — two readings of one text.
* `Correspondence.onward` — two readings of one text that take up at least one character.
* `Recognizer.silent` — the recognizer that keeps nothing.
-/

namespace SearchQuery

namespace Correspondence

open Recognizer

variable {σ τ : Type}

/-! ## Two readings of one text -/

/-- Readings that differ in what they keep of the failures. They meet the same places: all of them
satisfy `P`, and what has been read ends at places that satisfy `Q`. Their states are related by
`S`. -/
def twin (noteLeft : Failure → σ → σ) (noteRight : Failure → τ → τ) (S : σ → τ → Prop)
    (P Q : Cursor → Prop) : Correspondence σ τ where
  noteLeft := noteLeft
  noteRight := noteRight
  states := S
  places c d := c = d ∧ Q c
  facing c d := c = d ∧ P c
  trees a b := a = b ∧ Q a.stop
  lost _ := False
  edge := 0

/-- Readings that differ in what they keep of the failures. They meet the same places, all of which
satisfy `P`, and their states are related by `S`. -/
def same (noteLeft : Failure → σ → σ) (noteRight : Failure → τ → τ) (S : σ → τ → Prop)
    (P : Cursor → Prop) : Correspondence σ τ where
  noteLeft := noteLeft
  noteRight := noteRight
  states := S
  places c d := c = d ∧ P c
  facing c d := c = d ∧ P c
  trees a b := a = b ∧ P a.stop
  lost _ := False
  edge := 0

section Twin

variable {noteLeft : Failure → σ → σ} {noteRight : Failure → τ → τ} {S : σ → τ → Prop}
  {P Q : Cursor → Prop}

theorem twin_escapes (c : Cursor) (x : Attempt σ ParseTree) :
    (twin noteLeft noteRight S P Q).Escapes c x :=
  fun _ => ⟨False.elim, fun h => absurd h (Nat.not_lt_zero _)⟩

/-- Nothing goes wrong between readings of one text. -/
theorem agree_twin_iff {p : Option ParseTree × σ} {q : Option ParseTree × τ} :
    (twin noteLeft noteRight S P Q).Agree p q ↔
      p.1 = q.1 ∧ S p.2 q.2 ∧ ∀ t, p.1 = some t → Q t.stop := by
  constructor
  · intro h
    cases h with
    | none h => exact ⟨rfl, h, nofun⟩
    | some hab h =>
      obtain ⟨rfl, hQ⟩ := hab
      exact ⟨rfl, h, fun t ht => Option.some.inj ht ▸ hQ⟩
    | gone h =>
      cases h with
      | lost h => exact h.elim
      | past h => exact absurd h (Nat.not_lt_zero _)
  · obtain ⟨_ | a, s⟩ := p <;> obtain ⟨found, t⟩ := q <;> rintro ⟨rfl, hst, hQ⟩
    · exact .none hst
    · exact .some ⟨rfl, hQ a rfl⟩ hst

/-- The places at which something ends must be closed under reading on, and every item that takes up
a character leads to them. -/
theorem twin_lawful (hQ : ∀ c n, Q c → Q (c.advance n)) (hP : ∀ c, Q c → P c)
    (hPQ : ∀ c n, P c → (c.advance n).remaining < c.remaining → Q (c.advance n))
    (hS : ∀ f s t, P f.place → S s t → S (noteLeft f s) (noteRight f t)) :
    (twin noteLeft noteRight S P Q).Lawful where
  lost_note _ _ h := h
  lost_note_of_past _ _ h := absurd h (Nat.not_lt_zero _)
  skip h := ⟨h.1 ▸ rfl, hP _ (hQ _ _ h.2)⟩
  stop h := ⟨h.1 ▸ rfl, h.2⟩
  node {a b as bs} rule h hs := by
    obtain ⟨rfl, ha⟩ := h
    have heq : ∀ {as bs}, List.Forall₂ (twin noteLeft noteRight S P Q).trees as bs →
        as = bs ∧ ∀ t ∈ as, Q t.stop := by
      intro as bs h
      induction h with
      | nil => simp
      | cons hab _ ih => grind [twin]
    obtain ⟨rfl, hall⟩ := heq hs
    refine ⟨rfl, ?_⟩
    rw [ParseTree.stop_node]
    rcases List.mem_cons.1 (List.getLastD_mem_cons (l := as) (a := a)) with h | h
    · rwa [h]
    · exact hall _ h
  spaces h := by
    obtain ⟨rfl, hc⟩ := h
    exact ⟨rfl, hQ _ _ hc⟩
  literal {l c d} hl h := by
    obtain ⟨rfl, hc⟩ := h
    intro s t hst
    cases he : c.literal? l with
    | none =>
      rw [literal_of_none _ he, literal_of_none _ he]
      exact .none (hS _ _ _ hc hst)
    | some e =>
      rw [literal_of_some _ he, literal_of_some _ he]
      have hlength : ∀ l ∈ literals, 0 < l.length := by decide
      have hremaining := Cursor.remaining_of_literal? he
      have hpos := hlength l hl
      obtain ⟨-, rfl⟩ := Cursor.literal?_eq_some_iff.1 he
      exact .some ⟨rfl, hPQ _ _ hc (by omega)⟩ hst
  ident {c d} h := by
    obtain ⟨rfl, hc⟩ := h
    intro s t hst
    cases he : c.word? with
    | none =>
      rw [ident_of_none _ he, ident_of_none _ he]
      exact .none (hS _ _ _ hc hst)
    | some e =>
      rw [ident_of_some _ he, ident_of_some _ he]
      have hremaining := Cursor.remaining_lt_of_word? he
      obtain ⟨-, rfl⟩ := Cursor.word?_eq_some_iff.1 he
      exact .some ⟨rfl, hPQ _ _ hc hremaining⟩ hst
  order h h' := by rw [h.1, h'.1]
  edge_le _ := Nat.zero_le _

end Twin

section Same

variable {noteLeft : Failure → σ → σ} {noteRight : Failure → τ → τ} {S : σ → τ → Prop}
  {P : Cursor → Prop}

theorem same_escapes (c : Cursor) (x : Attempt σ ParseTree) :
    (same noteLeft noteRight S P).Escapes c x :=
  twin_escapes c x

theorem agree_same_iff {p : Option ParseTree × σ} {q : Option ParseTree × τ} :
    (same noteLeft noteRight S P).Agree p q ↔
      p.1 = q.1 ∧ S p.2 q.2 ∧ ∀ t, p.1 = some t → P t.stop :=
  agree_twin_iff

theorem same_lawful (hP : ∀ c n, P c → P (c.advance n))
    (hS : ∀ f s t, P f.place → S s t → S (noteLeft f s) (noteRight f t)) :
    (same noteLeft noteRight S P).Lawful :=
  twin_lawful hP (fun _ => id) (fun c n hc _ => hP c n hc) hS

/-- One round of the recursion, whatever closes it. -/
theorem same_round (hP : ∀ c n, P c → P (c.advance n))
    (hS : ∀ f s t, P f.place → S s t → S (noteLeft f s) (noteRight f t))
    {L : Cursor → Attempt σ ParseTree} {R : Cursor → Attempt τ ParseTree} {c : Cursor} (hc : P c)
    (hLR : ∀ d, d.remaining < c.remaining → P d →
      (same noteLeft noteRight S P).Follows (L d) (R d)) :
    (same noteLeft noteRight S P).Follows
      (logicalAlternatives
        ⟨noteLeft, fun d => if d.remaining < c.remaining then L d else failure⟩ c)
      (logicalAlternatives
        ⟨noteRight, fun d => if d.remaining < c.remaining then R d else failure⟩ c) := by
  refine (same_lawful hP hS).logicalAlternatives_follows (fun d => same_escapes d _)
    (fun _ _ => (same_lawful hP hS).logicalExp_follows ?_) ⟨rfl, hc⟩
  rintro d _ ⟨rfl, hd⟩
  by_cases hlt : d.remaining < c.remaining
  · simpa only [if_pos hlt] using hLR d hlt hd
  · simp only [if_neg hlt]
    exact fun _ _ => .none

/-- Whatever is kept of the failures, reading afresh finds the same. -/
theorem same_afreshAt (hP : ∀ c n, P c → P (c.advance n))
    (hS : ∀ f s t, P f.place → S s t → S (noteLeft f s) (noteRight f t)) {c : Cursor} (hc : P c) :
    (same noteLeft noteRight S P).Follows (afreshAt noteLeft c) (afreshAt noteRight c) :=
  (same_lawful hP hS).afreshAt_follows (fun d => same_escapes d _) ⟨rfl, hc⟩

theorem same_whole (hP : ∀ c n, P c → P (c.advance n))
    (hS : ∀ f s t, P f.place → S s t → S (noteLeft f s) (noteRight f t))
    {L : Cursor → Attempt σ ParseTree} {R : Cursor → Attempt τ ParseTree}
    (hLR : ∀ c, P c → (same noteLeft noteRight S P).Follows (L c) (R c)) {c : Cursor}
    (hc : P c) :
    (same noteLeft noteRight S P).Follows (whole ⟨noteLeft, L⟩ c) (whole ⟨noteRight, R⟩ c) := by
  refine (same_lawful hP hS).whole_follows (fun _ _ => (same_lawful hP hS).logicalExp_follows ?_)
    ⟨rfl, hc⟩ ?_
  · rintro d _ ⟨rfl, hd⟩
    exact hLR d hd
  · rintro d _ ⟨rfl, hd⟩
    exact ⟨rfl, fun s t hst => .none (hS _ _ _ hd hst)⟩

end Same

/-! ## Reading on -/

section Onward

variable {noteLeft : Failure → σ → σ} {noteRight : Failure → τ → τ} {S : σ → τ → Prop}
  {P : Cursor → Prop}

def onward (noteLeft : Failure → σ → σ) (noteRight : Failure → τ → τ) (S : σ → τ → Prop)
    (P : Cursor → Prop) (c : Cursor) : Correspondence σ τ :=
  twin noteLeft noteRight S (fun d => P d ∧ d.remaining ≤ c.remaining)
    fun d => P d ∧ d.remaining < c.remaining

theorem agree_onward_iff {c : Cursor} {p : Option ParseTree × σ} {q : Option ParseTree × τ} :
    (onward noteLeft noteRight S P c).Agree p q ↔
      p.1 = q.1 ∧ S p.2 q.2 ∧ ∀ t, p.1 = some t → P t.stop ∧ t.stop.remaining < c.remaining :=
  agree_twin_iff

/-- One round of the recursion at `c` reads on, and it relies only on what is read behind `c`. -/
theorem onward_round (hP : ∀ c n, P c → P (c.advance n))
    (hS : ∀ f s t, P f.place → S s t → S (noteLeft f s) (noteRight f t))
    {L : Cursor → Attempt σ ParseTree} {R : Cursor → Attempt τ ParseTree} {c : Cursor} (hc : P c)
    (hLR : ∀ d, d.remaining < c.remaining → P d →
      (onward noteLeft noteRight S P d).Follows (L d) (R d)) :
    (onward noteLeft noteRight S P c).Follows (logicalAlternatives ⟨noteLeft, L⟩ c)
      (logicalAlternatives ⟨noteRight, R⟩ c) := by
  have hK : (onward noteLeft noteRight S P c).Lawful := by
    refine twin_lawful (fun d n hd => ⟨hP d n hd.1, ?_⟩) (fun d hd => ⟨hd.1, Nat.le_of_lt hd.2⟩)
      (fun d n hd hlt => ⟨hP d n hd.1, Nat.lt_of_lt_of_le hlt hd.2⟩) fun f s t hf => hS f s t hf.1
    rw [Cursor.remaining_advance]
    exact Nat.lt_of_le_of_lt (Nat.sub_le _ _) hd.2
  refine hK.logicalAlternatives_follows (fun d => twin_escapes d _) ?_ ⟨rfl, hc, Nat.le_refl _⟩
  rintro d _ ⟨rfl, hd, hlt⟩ s t hst
  have hskip := Nat.lt_of_le_of_lt (Cursor.remaining_skipBlanks_le d) hlt
  obtain ⟨hfound, hstate, hstop⟩ := agree_onward_iff.1 (hLR d.skipBlanks hskip (hP _ _ hd) s t hst)
  exact agree_onward_iff.2 ⟨hfound, hstate,
    fun a ha => ⟨(hstop a ha).1, Nat.lt_trans (hstop a ha).2 hskip⟩⟩

end Onward

end Correspondence

namespace Recognizer

variable {σ : Type} {note : Failure → σ → σ}

def silent : Recognizer Unit := .afresh fun _ _ => ()

/-- What every note keeps is kept by the whole reading. -/
theorem afreshAt_keeps {I : σ → Prop} (hI : ∀ f s, I s → I (note f s)) (c : Cursor) {s : σ}
    (hs : I s) : I (afreshAt note c s).2 := by
  let K := Correspondence.same note (fun _ _ => ()) (fun s (_ : Unit) => I s) fun _ => True
  have h : K.Follows (afreshAt note c) (afreshAt _ c) :=
    Correspondence.same_afreshAt (fun _ _ => id) (fun f s _ _ => hI f s) trivial
  exact (Correspondence.agree_same_iff.1 (h s () hs)).2.1

end Recognizer

namespace Correspondence

variable {σ τ : Type} {K : Correspondence σ τ}

/-- Reading afresh never finds back: past the edge it notes a failure there or reads on. -/
theorem Lawful.afreshAt_escapes (hK : K.Lawful) (c : Cursor) :
    K.Escapes c (Recognizer.afreshAt K.noteLeft c) := by
  intro s
  refine ⟨Recognizer.afreshAt_keeps hK.lost_note c, fun hc => ?_⟩
  rcases h : Recognizer.afreshAt K.noteLeft c s with ⟨_ | t, s'⟩
  · obtain ⟨s₀, rfl⟩ := Recognizer.afreshAt_eq_none h
    exact .lost (hK.lost_note_of_past _ _ hc)
  · have := Recognizer.afresh_advances K.noteLeft c s t (congrArg Prod.fst h)
    exact .past (Nat.lt_trans this hc)

theorem Lawful.afresh_follows (hK : K.Lawful) {c d : Cursor} (h : K.facing c d) :
    K.Follows (Recognizer.afreshAt K.noteLeft c) (Recognizer.afreshAt K.noteRight d) :=
  hK.afreshAt_follows hK.afreshAt_escapes h

theorem Lawful.afresh_logicalExp_follows (hK : K.Lawful) {c d : Cursor} (h : K.places c d) :
    K.Follows ((Recognizer.afresh K.noteLeft).logicalExp c)
      ((Recognizer.afresh K.noteRight).logicalExp d) :=
  hK.logicalExp_follows (fun _ _ => hK.afresh_follows) h

end Correspondence

end SearchQuery
