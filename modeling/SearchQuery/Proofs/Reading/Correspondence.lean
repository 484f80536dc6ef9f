import SearchQuery.Syntax.Progress

/-!
# Corresponding readings

Two readings of the same productions, perhaps of different texts and with different states, are
compared step by step. As long as they meet corresponding places and the leaves behave alike, they
find corresponding trees and keep corresponding states. The comparison may end early: when the left
reading is lost, or has read past an edge behind which the texts have nothing in common, nothing is
said about the right one.

## Main definitions

* `Correspondence` — what ties two readings together.
* `Correspondence.Follows` — the right attempt does what the left one does, unless that one is gone.
* `Correspondence.Escapes` — a left attempt that is gone never finds back.
-/

namespace SearchQuery

def Recognizer.literals : List String := ["(", ")", "\"", ":\"", ":", "AND", "OR"]

/-- What ties two readings together. -/
structure Correspondence (σ τ : Type) where
  /-- How the left reading notes a failure. -/
  noteLeft : Failure → σ → σ
  /-- How the right reading notes a failure. -/
  noteRight : Failure → τ → τ
  /-- Which states belong together. -/
  states : σ → τ → Prop
  /-- Which places belong together. -/
  places : Cursor → Cursor → Prop
  /-- Which places behind skipped blanks belong together. -/
  facing : Cursor → Cursor → Prop
  /-- Which trees belong together. -/
  trees : ParseTree → ParseTree → Prop
  /-- The left reading need not be followed after this. -/
  lost : σ → Prop
  /-- Past the edge, with fewer characters to come, the left reading need not be followed. -/
  edge : Nat

namespace Correspondence

open Recognizer

variable {σ τ : Type} (K : Correspondence σ τ)

/-- The left reading is lost or has read past the edge. -/
inductive Gone : Option ParseTree × σ → Prop where
  | lost {found : Option ParseTree} {s : σ} (h : K.lost s) : Gone (found, s)
  | past {t : ParseTree} {s : σ} (h : t.stop.remaining < K.edge) : Gone (some t, s)

/-- The outcomes of two readings belong together. -/
inductive Agree : Option ParseTree × σ → Option ParseTree × τ → Prop where
  | gone {p : Option ParseTree × σ} {q : Option ParseTree × τ} (h : K.Gone p) : Agree p q
  | none {s : σ} {t : τ} (h : K.states s t) : Agree (none, s) (none, t)
  | some {a b : ParseTree} {s : σ} {t : τ} (hab : K.trees a b) (h : K.states s t) :
    Agree (some a, s) (some b, t)

def Follows (x : Attempt σ ParseTree) (y : Attempt τ ParseTree) : Prop :=
  ∀ s t, K.states s t → K.Agree (x s) (y t)

/-- An attempt at `c` never finds back: a lost state stays lost, and past the edge the attempt is
lost or reads on. -/
def Escapes (c : Cursor) (x : Attempt σ ParseTree) : Prop :=
  ∀ s, (K.lost s → K.lost (x s).2) ∧ (c.remaining < K.edge → K.Gone (x s))

variable {K}

namespace Escapes

variable {c : Cursor} {x y : Attempt σ ParseTree}

theorem pure (t : ParseTree) : K.Escapes t.stop (Pure.pure t) :=
  fun _ => ⟨id, .past⟩

theorem bind {f : ParseTree → Attempt σ ParseTree} (hx : K.Escapes c x)
    (hf : ∀ t, K.Escapes t.stop (f t)) : K.Escapes c (x >>= f) := by
  intro s
  obtain ⟨hkeep, hgone⟩ := hx s
  rw [Attempt.bind_apply]
  rcases hxs : x s with ⟨_ | t, s'⟩ <;> rw [hxs] at hkeep hgone
  · exact ⟨hkeep, hgone⟩
  · refine ⟨fun h => (hf t s').1 (hkeep h), fun h => ?_⟩
    rcases hgone h with h | h
    · exact .lost ((hf t s').1 h)
    · exact (hf t s').2 h

theorem orElse (hx : K.Escapes c x) (hy : K.Escapes c y) : K.Escapes c (x <|> y) := by
  intro s
  obtain ⟨hkeep, hgone⟩ := hx s
  rw [Attempt.orElse_apply]
  rcases hxs : x s with ⟨_ | t, s'⟩ <;> rw [hxs] at hkeep hgone
  · exact ⟨fun h => (hy s').1 (hkeep h), (hy s').2⟩
  · exact ⟨hkeep, hgone⟩

theorem mono {d : Cursor} (hx : K.Escapes d x) (h : d.remaining ≤ c.remaining) :
    K.Escapes c x :=
  fun s => ⟨(hx s).1, fun hc => (hx s).2 (Nat.lt_of_le_of_lt h hc)⟩

theorem single (hx : K.Escapes c x) : K.Escapes c (Recognizer.single x) :=
  hx.bind fun t => pure (.node .priExp t [])

variable {L : Cursor → Attempt σ ParseTree} (hL : ∀ c, K.Escapes c (L c))

include hL

theorem logicalExp (c : Cursor) : K.Escapes c (Recognizer.logicalExp ⟨K.noteLeft, L⟩ c) :=
  (hL _).mono (Cursor.remaining_skipBlanks_le c)

theorem exp (c : Cursor) : K.Escapes c (Recognizer.exp ⟨K.noteLeft, L⟩ c) :=
  (logicalExp hL c).bind fun inner => pure (.node .exp inner [])

theorem joined (left : ParseTree) :
    K.Escapes left.stop (Recognizer.joined ⟨K.noteLeft, L⟩ left) :=
  (logicalExp hL _).bind fun right => pure (.node .logicalJoin left [right])

end Escapes

namespace Follows

variable {x x' : Attempt σ ParseTree} {y y' : Attempt τ ParseTree}

theorem pure {a b : ParseTree} (h : K.trees a b) :
    K.Follows (Pure.pure a) (Pure.pure b) :=
  fun _ _ hst => .some h hst

/-- What is known of a tree that was read can be used for what follows it. -/
theorem bind_of_yields {P : ParseTree → Prop} {f : ParseTree → Attempt σ ParseTree}
    {g : ParseTree → Attempt τ ParseTree} (hxy : K.Follows x y) (hP : x.Yields P)
    (he : ∀ a, K.Escapes a.stop (f a)) (hfg : ∀ a b, P a → K.trees a b → K.Follows (f a) (g b)) :
    K.Follows (x >>= f) (y >>= g) := by
  intro s t hst
  have hagree := hxy s t hst
  have hread := hP s
  rw [Attempt.bind_apply, Attempt.bind_apply]
  rcases hxs : x s with ⟨found, s'⟩
  rcases hyt : y t with ⟨found', t'⟩
  rw [hxs, hyt] at hagree
  rw [hxs] at hread
  cases hagree with
  | none h => exact .none h
  | some hab h => exact hfg _ _ (hread _ rfl) hab _ _ h
  | gone h =>
    cases h with
    | past h => exact .gone ((he _ _).2 h)
    | lost h =>
      cases found with
      | none => exact .gone (.lost h)
      | some a => exact .gone (.lost ((he a s').1 h))

theorem bind {f : ParseTree → Attempt σ ParseTree} {g : ParseTree → Attempt τ ParseTree}
    (hxy : K.Follows x y) (he : ∀ a, K.Escapes a.stop (f a))
    (hfg : ∀ a b, K.trees a b → K.Follows (f a) (g b)) : K.Follows (x >>= f) (y >>= g) :=
  hxy.bind_of_yields (P := fun _ => True) (fun _ _ _ => trivial) he fun a b _ => hfg a b

theorem orElse (hxy : K.Follows x y) (he : ∀ s, K.lost s → K.lost (x' s).2)
    (hxy' : K.Follows x' y') : K.Follows (x <|> x') (y <|> y') := by
  intro s t hst
  have hagree := hxy s t hst
  rw [Attempt.orElse_apply, Attempt.orElse_apply]
  rcases hxs : x s with ⟨found, s'⟩
  rcases hyt : y t with ⟨found', t'⟩
  rw [hxs, hyt] at hagree
  cases hagree with
  | none h => exact hxy' _ _ h
  | some hab h => exact .some hab h
  | gone h =>
    cases h with
    | past h => exact .gone (.past h)
    | lost h =>
      cases found with
      | none => exact .gone (.lost (he s' h))
      | some a => exact .gone (.lost h)

end Follows

end Correspondence

end SearchQuery
