/-!
# Attempts

An attempt reads something or fails, and either way it may have changed the state. The state
outlives failure: of two alternatives, the second starts from what the first one noted.

## Main definitions

* `Attempt` — reading something, with a state.
* `Attempt.orElse` — ordered choice.
* `Attempt.Yields` — a property of whatever an attempt reads.
-/

namespace SearchQuery

/-- Reading an `α` with a state `σ`: what was read, if anything, and the state afterwards. -/
def Attempt (σ α : Type) : Type := σ → Option α × σ

namespace Attempt

variable {σ α β : Type}

protected def pure (a : α) : Attempt σ α := fun s => (some a, s)

protected def bind (x : Attempt σ α) (f : α → Attempt σ β) : Attempt σ β := fun s =>
  match x s with
  | (some a, s) => f a s
  | (none, s) => (none, s)

/-- The second attempt is made only if the first one fails, in the state the first one left. -/
protected def orElse (x : Attempt σ α) (y : Unit → Attempt σ α) : Attempt σ α := fun s =>
  match x s with
  | (some a, s) => (some a, s)
  | (none, s) => y () s

def failAfter (f : σ → σ) : Attempt σ α := fun s => (none, f s)

instance : Monad (Attempt σ) where
  pure := Attempt.pure
  bind := Attempt.bind

instance : Alternative (Attempt σ) where
  failure := failAfter id
  orElse := Attempt.orElse

@[simp, grind =] theorem pure_apply (a : α) (s : σ) :
    (pure a : Attempt σ α) s = (some a, s) := rfl

@[simp, grind =] theorem failure_apply (s : σ) : (failure : Attempt σ α) s = (none, s) := rfl

@[simp, grind =] theorem failAfter_apply (f : σ → σ) (s : σ) :
    (failAfter f : Attempt σ α) s = (none, f s) := rfl

@[grind =] theorem bind_apply (x : Attempt σ α) (f : α → Attempt σ β) (s : σ) :
    (x >>= f) s = match x s with
      | (some a, s) => f a s
      | (none, s) => (none, s) := rfl

theorem orElse_apply (x y : Attempt σ α) (s : σ) :
    (x <|> y) s = match x s with
      | (some a, s) => (some a, s)
      | (none, s) => y s := rfl

/-- If both attempts fail, the second one fails last. -/
theorem of_orElse_eq_none {x y : Attempt σ α} {s s' : σ} (h : (x <|> y) s = (none, s')) :
    ∃ s₀, y s₀ = (none, s') := by
  rw [orElse_apply] at h
  rcases hx : x s with ⟨_ | a, s₀⟩ <;> rw [hx] at h
  · exact ⟨s₀, h⟩
  · simp at h

theorem bind_pure_self (x : Attempt σ α) : (x >>= pure) = x := by
  funext s
  rw [bind_apply]
  rcases x s with ⟨_ | a, s'⟩ <;> rfl

protected theorem bind_assoc {γ : Type} (x : Attempt σ α) (f : α → Attempt σ β)
    (g : β → Attempt σ γ) : x >>= f >>= g = x >>= fun a => f a >>= g := by
  funext s
  simp only [bind_apply]
  rcases x s with ⟨_ | a, s'⟩ <;> rfl

instance : LawfulMonad (Attempt σ) :=
  LawfulMonad.mk' _ bind_pure_self (fun _ _ => rfl) Attempt.bind_assoc

/-! ## What an attempt can read -/

def Yields (x : Attempt σ α) (P : α → Prop) : Prop := ∀ s a, (x s).1 = some a → P a

namespace Yields

variable {P Q : α → Prop} {R : β → Prop} {x y : Attempt σ α}

theorem pure {a : α} (h : P a) : (Pure.pure a : Attempt σ α).Yields P := by
  intro s b hb
  obtain rfl := Option.some.inj hb
  exact h

theorem failAfter (f : σ → σ) : (Attempt.failAfter f : Attempt σ α).Yields P := nofun

theorem bind {f : α → Attempt σ β} (hx : x.Yields P) (hf : ∀ a, P a → (f a).Yields R) :
    (x >>= f).Yields R := by
  intro s b hb
  rw [bind_apply] at hb
  have h := hx s
  rcases hxs : x s with ⟨_ | a, s'⟩ <;> rw [hxs] at h hb
  · contradiction
  · exact hf a (h a rfl) s' b hb

theorem orElse (hx : x.Yields P) (hy : y.Yields P) : (x <|> y).Yields P := by
  intro s b hb
  rw [orElse_apply] at hb
  have h := hx s
  rcases hxs : x s with ⟨_ | a, s'⟩ <;> rw [hxs] at h hb
  · exact hy s' b hb
  · exact h b hb

theorem mono (hx : x.Yields P) (h : ∀ a, P a → Q a) : x.Yields Q :=
  fun s a ha => h a (hx s a ha)

end Yields

/-- After `x`, only how an attempt goes on from what `x` can read matters. -/
theorem bind_congr_of_yields {P : α → Prop} {x : Attempt σ α} {f g : α → Attempt σ β}
    (hx : x.Yields P) (h : ∀ a, P a → f a = g a) : x >>= f = x >>= g := by
  funext s
  rw [bind_apply, bind_apply]
  have hs := hx s
  rcases hxs : x s with ⟨_ | a, s'⟩
  · rfl
  · rw [hxs] at hs
    exact congrFun (h a (hs a rfl)) s'

end Attempt

end SearchQuery
