import Mathlib.Data.List.Chain
import Mathlib.Logic.Function.Iterate
import SearchQuery.Proofs.Query.Flat

/-!
# Merging level by level

Merging a query once takes in the operands of those children that have its own operator. Among these
operands there may again be combinations with this operator. They are one level higher than before,
so the longest chain of nested combinations tells how often the query can be merged.

## Main definitions

* `Query.children` — the operands of a combination.
* `Query.Nests` — a combination right below one with the same operator.

Main statement: `Query.flatten_level`.
-/

namespace SearchQuery.Query

variable {q inner : Query}

def children : Query → List Query
  | logic _ children => children
  | _ => []

@[simp] theorem children_text (value : String) : (text value).children = [] := rfl

@[simp] theorem children_keyword (key value : String) : (keyword key value).children = [] := rfl

@[simp] theorem children_logic (p : Connective) (children : List Query) :
    (logic p children).children = children := rfl

/-- `inner` is a combination right below `outer`, and both have the same operator. -/
def Nests (outer inner : Query) : Prop :=
  inner ∈ outer.children ∧ inner.operator? = outer.operator?

/-! ## Flat queries -/

/-- There is nothing to merge in a flat query. -/
theorem flatten_of_flat (h : q.Flat) : q.flatten = q := by
  cases h with
  | text value => rfl
  | keyword key value => rfl
  | logic hop h => rw [flatten, flatMap_operandsOf hop]

/-- If the children are flat, merging once makes the query flat. -/
theorem flat_flatten_of_children (h : ∀ child ∈ q.children, child.Flat) : q.flatten.Flat := by
  cases q with
  | text value => exact .text value
  | keyword key value => exact .keyword key value
  | logic p children => exact flat_flatten h

/-! ## Chains of nested combinations -/

/-- What is nested in the merged query was nested two levels deep. -/
theorem nests_flatten_iff : Nests q.flatten inner ↔ ∃ child, Nests q child ∧ Nests child inner := by
  cases q with
  | text value => simp [Nests, flatten]
  | keyword key value => simp [Nests, flatten]
  | logic p operands =>
    constructor
    · rintro ⟨hinner, hop⟩
      obtain ⟨child, hchild, hinner⟩ := List.mem_flatMap.1 hinner
      rcases operandsOf_cases p child with ⟨hne, heq⟩ | ⟨children, rfl, heq⟩
      · rw [heq, List.mem_singleton] at hinner
        exact absurd (hinner ▸ hop) hne
      · rw [heq] at hinner
        exact ⟨_, ⟨hchild, rfl⟩, hinner, hop⟩
    · rintro ⟨child, ⟨hchild, hop⟩, hinner, hop'⟩
      refine ⟨List.mem_flatMap.2 ⟨child, hchild, ?_⟩, hop'.trans hop⟩
      cases child with
      | text value => contradiction
      | keyword key value => contradiction
      | logic p' children =>
        obtain rfl : p' = p := Option.some.inj hop
        rwa [operandsOf_logic_self]

def HasChain (q : Query) (n : Nat) : Prop :=
  ∃ chain, (q :: chain).IsChain Nests ∧ chain.length = n

theorem hasChain_one_iff : HasChain q 1 ↔ ∃ child, Nests q child := by
  constructor
  · rintro ⟨chain, hchain, hlen⟩
    obtain ⟨child, rfl⟩ := List.length_eq_one_iff.1 hlen
    exact ⟨child, (List.isChain_cons_cons.1 hchain).1⟩
  · rintro ⟨child, h⟩
    exact ⟨[child], List.isChain_pair.2 h, rfl⟩

/-- Merging takes the first link out of every chain. -/
theorem hasChain_flatten_iff (n : Nat) : HasChain q.flatten (n + 1) ↔ HasChain q (n + 2) := by
  constructor
  · rintro ⟨chain, hchain, hlen⟩
    obtain ⟨inner, rest, rfl⟩ := List.exists_cons_of_length_eq_add_one hlen
    obtain ⟨hnests, hrest⟩ := List.isChain_cons_cons.1 hchain
    obtain ⟨child, hchild, hinner⟩ := nests_flatten_iff.1 hnests
    exact ⟨child :: inner :: rest, .cons_cons hchild (.cons_cons hinner hrest), by simpa using hlen⟩
  · rintro ⟨chain, hchain, hlen⟩
    obtain ⟨child, rest, rfl⟩ := List.exists_cons_of_length_eq_add_one hlen
    obtain ⟨inner, rest, rfl⟩ := List.exists_cons_of_length_eq_add_one (Nat.succ.inj hlen)
    obtain ⟨hchild, hchain⟩ := List.isChain_cons_cons.1 hchain
    obtain ⟨hinner, hrest⟩ := List.isChain_cons_cons.1 hchain
    have hnests := nests_flatten_iff.2 ⟨child, hchild, hinner⟩
    exact ⟨inner :: rest, .cons_cons hnests hrest, by simpa using hlen⟩

/-- After merging `d` times, combinations are nested exactly if `d + 1` were nested in a chain. -/
theorem hasChain_iterate_iff (d : Nat) : HasChain (flatten^[d] q) 1 ↔ HasChain q (d + 1) := by
  induction d generalizing q with
  | zero => rfl
  | succ d ih => rw [Function.iterate_succ_apply, ih, hasChain_flatten_iff]

/-- A chain that is too long has a part of any smaller length. -/
theorem forall_length_le_iff (d : Nat) :
    (∀ chain, (q :: chain).IsChain Nests → chain.length ≤ d) ↔ ¬ HasChain q (d + 1) := by
  constructor
  · rintro h ⟨chain, hchain, hlen⟩
    have := h chain hchain
    omega
  · intro h chain hchain
    by_contra hlen
    have hpart : q :: chain.take (d + 1) <+: q :: chain :=
      (List.prefix_cons_inj q).2 (List.take_prefix _ _)
    exact h ⟨chain.take (d + 1), hchain.prefix hpart, by simp; omega⟩

/-- Merging keeps the truth of a query, its leaves and its operator. Above flat queries it gives a
flat query, which is not merged any further. Above any queries, nothing is left to merge at the root
exactly if the query was merged as often as combinations are nested below it, or more often. -/
theorem flatten_level (q : Query) :
    (∀ v n, holds v n q.flatten = holds v n q) ∧ q.flatten.leaves = q.leaves ∧
      q.flatten.operator? = q.operator? ∧
      ((∀ child ∈ q.children, child.Flat) → q.flatten.Flat ∧ q.flatten.flatten = q.flatten) ∧
      ∀ d, (∀ chain, (q :: chain).IsChain Nests → chain.length ≤ d) ↔
        ∀ child ∈ (flatten^[d] q).children, child.operator? ≠ (flatten^[d] q).operator? := by
  refine ⟨fun v n => holds_flatten q, leaves_flatten q, operator?_flatten q, fun h => ?_,
    fun d => ?_⟩
  · have hflat := flat_flatten_of_children h
    exact ⟨hflat, flatten_of_flat hflat⟩
  · rw [forall_length_le_iff, ← hasChain_iterate_iff, hasChain_one_iff, not_exists]
    exact forall_congr' fun child => not_and

/-- A flat child by the same operator, with an empty combination in it. Where combinations are
nested more deeply, merging once is not enough. -/
theorem flatten_level_nested :
    let q := logic .and [logic .and [text "a", logic .or []], text "b"]
    let deep := logic .or [logic .or [logic .or [text "a"], text "b"]]
    (∀ child ∈ q.children, child.Flat) ∧ q.flatten.Flat ∧ q.flatten.flatten = q.flatten ∧
      deep.flatten.flatten ≠ deep.flatten ∧
      ∀ chain, (deep :: chain).IsChain Nests → chain.length ≤ 2 := by
  intro q deep
  have hempty : (logic .or []).Flat := .logic nofun nofun
  have hinner : (logic .and [text "a", logic .or []]).Flat :=
    .logic (by decide) (by simpa using ⟨.text "a", hempty⟩)
  have hchildren : ∀ child ∈ q.children, child.Flat := by
    simpa [q] using ⟨hinner, .text "b"⟩
  obtain ⟨-, -, -, hflat, -⟩ := flatten_level q
  obtain ⟨-, -, -, -, hdepth⟩ := flatten_level deep
  exact ⟨hchildren, (hflat hchildren).1, (hflat hchildren).2, by decide, (hdepth 2).2 (by decide)⟩

end SearchQuery.Query
