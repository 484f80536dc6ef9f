import SearchQuery.Proofs.Query.Normal

/-!
# Merging, leaves and truth

Merging goes one level deep. Done at every level, from the leaves to the root, it leaves no
combination below one with the same operator. Either way, a query keeps its leaves, in their order,
and it is true or false as before.

## Main definitions

* `Query.flattenAll` — a query merged at every level.
* `Query.Flat` — no combination in the query is a child of one with the same operator.
* `Query.leaves` — the texts and filters in a query.
* `Query.holds` — whether a query is true, given the truth of its leaves.
-/

namespace SearchQuery

namespace Query

variable {q : Query} {p : Connective} {children : List Query}

/-! ## All levels -/

/-- Merges the children that have the operator of their parent, at every level. -/
def flattenAll : Query → Query
  | logic p children => flatten (logic p (children.map flattenAll))
  | q => q

@[simp] theorem flattenAll_text (value : String) : (text value).flattenAll = text value := by
  rw [flattenAll]
  simp

@[simp] theorem flattenAll_keyword (key value : String) :
    (keyword key value).flattenAll = keyword key value := by
  rw [flattenAll]
  simp

@[simp] theorem flattenAll_logic (p : Connective) (children : List Query) :
    (logic p children).flattenAll = flatten (logic p (children.map flattenAll)) := by
  rw [flattenAll]

/-- Merging makes no texts. -/
theorem flattenAll_eq_text_iff {value : String} : q.flattenAll = text value ↔ q = text value := by
  cases q <;> simp [flatten]

/-- No combination in the query is a child of one with the same operator. -/
inductive Flat : Query → Prop where
  | text (value : String) : Flat (text value)
  | keyword (key value : String) : Flat (keyword key value)
  | logic {operator : Connective} {children : List Query}
    (hop : ∀ child ∈ children, child.operator? ≠ some operator)
    (h : ∀ child ∈ children, Flat child) : Flat (logic operator children)

/-- What a flat child contributes is flat and has another operator than its parent. -/
theorem Flat.operandsOf (h : q.Flat) (p : Connective) :
    ∀ child ∈ operandsOf p q, child.operator? ≠ some p ∧ child.Flat := by
  rcases operandsOf_cases p q with ⟨hop, heq⟩ | ⟨children, rfl, heq⟩ <;> rw [heq]
  · exact List.forall_mem_singleton.2 ⟨hop, h⟩
  · cases h with
    | logic hop h => exact fun child hchild => ⟨hop child hchild, h child hchild⟩

/-- Above flat queries, one level is all there is to merge. -/
theorem flat_flatten (h : ∀ child ∈ children, child.Flat) : (flatten (logic p children)).Flat := by
  have hoperands : ∀ child ∈ children.flatMap (operandsOf p),
      child.operator? ≠ some p ∧ child.Flat := by
    intro child hchild
    obtain ⟨parent, hparent, hchild⟩ := List.mem_flatMap.1 hchild
    exact (h parent hparent).operandsOf p child hchild
  exact .logic (fun child hchild => (hoperands child hchild).1)
    fun child hchild => (hoperands child hchild).2

theorem flat_flattenAll (q : Query) : q.flattenAll.Flat := by
  induction q with
  | text value =>
    rw [flattenAll_text]
    exact .text value
  | keyword key value =>
    rw [flattenAll_keyword]
    exact .keyword key value
  | logic p children ih =>
    rw [flattenAll_logic]
    exact flat_flatten (List.forall_mem_map.2 ih)

theorem flattenAll_of_flat (h : q.Flat) : q.flattenAll = q := by
  induction h with
  | text value => exact flattenAll_text value
  | keyword key value => exact flattenAll_keyword key value
  | @logic operator children hop h ih =>
    rw [flattenAll_logic, List.map_congr_left ih, List.map_id', flatten, flatMap_operandsOf hop]

theorem flattenAll_flattenAll (q : Query) : q.flattenAll.flattenAll = q.flattenAll :=
  flattenAll_of_flat (flat_flattenAll q)

/-! ## Leaves -/

section Inventory

variable {α : Type} {f : Query → List α}

theorem flatMap_operandsOf_of_logic (hf : ∀ p children, f (logic p children) = children.flatMap f)
    (p : Connective) (q : Query) : (operandsOf p q).flatMap f = f q := by
  rcases operandsOf_cases p q with ⟨-, heq⟩ | ⟨children, rfl, heq⟩ <;> rw [heq]
  · exact List.flatMap_singleton ..
  · exact (hf p children).symm

/-- What a combination only has from its children, from left to right, is kept by merging. -/
theorem flatten_of_logic (hf : ∀ p children, f (logic p children) = children.flatMap f)
    (q : Query) : f q.flatten = f q := by
  cases q with
  | text value | keyword key value => rfl
  | logic p children =>
    simp only [flatten, hf, List.flatMap_assoc, flatMap_operandsOf_of_logic hf]

end Inventory

def leaves : Query → List Query
  | logic _ children => children.flatMap leaves
  | q => [q]

@[simp] theorem leaves_logic (p : Connective) (children : List Query) :
    (logic p children).leaves = children.flatMap leaves := by
  rw [leaves]

/-- Merging neither loses nor moves a leaf. -/
theorem leaves_flatten (q : Query) : q.flatten.leaves = q.leaves :=
  flatten_of_logic leaves_logic q

theorem leaves_flattenAll (q : Query) : q.flattenAll.leaves = q.leaves := by
  induction q with
  | text value => rw [flattenAll_text]
  | keyword key value => rw [flattenAll_keyword]
  | logic p children ih =>
    rw [flattenAll_logic, leaves_flatten, leaves_logic, leaves_logic, List.flatMap_map]
    exact List.flatMap_congr ih

end Query

/-! ## Truth -/

/-- Whether a combination is true, given the truth of its children. Without children, one by `AND`
is true and one by `OR` is not. -/
def Connective.holds : Connective → List Bool → Bool
  | and, values => values.all id
  | or, values => values.any id

namespace Connective

@[simp] theorem holds_singleton (p : Connective) (b : Bool) : p.holds [b] = b := by
  cases p <;> simp [holds]

/-- The children of a combination can be grouped. -/
theorem holds_append (p : Connective) (as bs : List Bool) :
    p.holds (as ++ bs) = p.holds [p.holds as, p.holds bs] := by
  cases p <;> simp [holds]

theorem holds_cons (p : Connective) (b : Bool) (bs : List Bool) :
    p.holds (b :: bs) = p.holds [b, p.holds bs] := by
  rw [← List.singleton_append, holds_append, holds_singleton]

end Connective

namespace Query

mutual

/-- Whether the query is true if `v i leaf` is the truth of a leaf with `i` leaves before it. There
are `n` leaves before the query. -/
def holds (v : Nat → Query → Bool) (n : Nat) : Query → Bool
  | logic p children => p.holds (truths v n children)
  | leaf => v n leaf

def truths (v : Nat → Query → Bool) (n : Nat) : List Query → List Bool
  | [] => []
  | q :: qs => holds v n q :: truths v (n + q.leaves.length) qs

end

variable {v : Nat → Query → Bool} {n : Nat} {p : Connective}

theorem holds_logic (children : List Query) :
    holds v n (logic p children) = p.holds (truths v n children) := by
  rw [holds]

theorem truths_append (qs rs : List Query) :
    truths v n (qs ++ rs) = truths v n qs ++ truths v (n + (qs.flatMap leaves).length) rs := by
  induction qs generalizing n with
  | nil => rfl
  | cons q qs ih => simp [truths, ih, Nat.add_assoc]

/-- A child counts as much as what it contributes to its parent. -/
theorem holds_operandsOf (p : Connective) (q : Query) :
    p.holds (truths v n (operandsOf p q)) = holds v n q := by
  rcases operandsOf_cases p q with ⟨-, heq⟩ | ⟨children, rfl, heq⟩ <;> rw [heq]
  · simp [truths]
  · rw [holds_logic]

/-- The children of a child with the same operator can stand in its place. -/
theorem holds_flatMap_operandsOf (children : List Query) :
    p.holds (truths v n (children.flatMap (operandsOf p))) = p.holds (truths v n children) := by
  induction children generalizing n with
  | nil => rfl
  | cons child children ih =>
    rw [List.flatMap_cons, truths_append, Connective.holds_append, holds_operandsOf,
      flatMap_operandsOf_of_logic leaves_logic, ih, truths, ← Connective.holds_cons]

/-- Merging keeps the truth of a query. -/
theorem holds_flatten (q : Query) : holds v n q.flatten = holds v n q := by
  cases q with
  | text value | keyword key value => rfl
  | logic p children => rw [flatten, holds_logic, holds_logic, holds_flatMap_operandsOf]

theorem truths_map_flattenAll {qs : List Query}
    (h : ∀ q ∈ qs, ∀ n, holds v n q.flattenAll = holds v n q) :
    truths v n (qs.map flattenAll) = truths v n qs := by
  induction qs generalizing n with
  | nil => rfl
  | cons q qs ih =>
    rw [List.map_cons, truths, truths, h q List.mem_cons_self, leaves_flattenAll,
      ih fun r hr => h r (List.mem_cons_of_mem q hr)]

theorem holds_flattenAll (q : Query) : holds v n q.flattenAll = holds v n q := by
  induction q generalizing n with
  | text value => rw [flattenAll_text]
  | keyword key value => rw [flattenAll_keyword]
  | logic p children ih =>
    rw [flattenAll_logic, holds_flatten, holds_logic, holds_logic,
      truths_map_flattenAll fun q hq n => ih q hq]

end Query

end SearchQuery
