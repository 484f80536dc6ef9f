import SearchQuery.Syntax.Tree

/-!
# Nodes and leaves of a tree

## Main definitions

* `ParseTree.Everywhere` — a property of a tree and of all trees in it.
* `ParseTree.leaves` — the trees without children in a tree, in order.
-/

namespace SearchQuery.ParseTree

/-! ## All nodes -/

def Everywhere (P : ParseTree → Prop) (t : ParseTree) : Prop :=
  ∀ path n, t.descend? path = some n → P n

variable {P : ParseTree → Prop} {t : ParseTree}

theorem everywhere_of_children (h : P t) (hchildren : ∀ child ∈ t.children, child.Everywhere P) :
    t.Everywhere P := by
  intro path n hn
  cases path with
  | nil => exact Option.some.inj hn ▸ h
  | cons i path =>
    obtain ⟨child, hchild, hn⟩ := Option.bind_eq_some_iff.1 hn
    exact hchildren child (List.mem_of_getElem? hchild) path n hn

theorem everywhere_leaf {rule : Rule} {c d : Cursor} (h : P (.leaf rule c d)) :
    (leaf rule c d).Everywhere P :=
  everywhere_of_children h nofun

theorem Everywhere.here (h : t.Everywhere P) : P t := h [] t rfl

theorem Everywhere.child (h : t.Everywhere P) {child : ParseTree} (hchild : child ∈ t.children) :
    child.Everywhere P := by
  intro path n hn
  obtain ⟨i, hi⟩ := List.mem_iff_getElem?.1 hchild
  refine h (i :: path) n ?_
  rw [descend?, hi]
  exact hn

/-- What holds everywhere in a tree holds everywhere in a tree inside it. -/
theorem Everywhere.descend (h : t.Everywhere P) {path : List Nat} {n : ParseTree}
    (hn : t.descend? path = some n) : n.Everywhere P := by
  induction path generalizing t with
  | nil => exact Option.some.inj hn ▸ h
  | cons i path ih =>
    obtain ⟨child, hchild, hn⟩ := Option.bind_eq_some_iff.1 hn
    exact ih (h.child (List.mem_of_getElem? hchild)) hn

/-! ## Leaves -/

def leaves (t : ParseTree) : List ParseTree :=
  if t.children.isEmpty then [t] else t.children.flatMap fun c => leaves c
termination_by sizeOf t
decreasing_by exact sizeOf_lt_of_mem_children (by assumption)

theorem leaves_of_nil (h : t.children = []) : t.leaves = [t] := by
  rw [leaves, if_pos (by simp [h])]

theorem leaves_of_ne_nil (h : t.children ≠ []) : t.leaves = t.children.flatMap leaves := by
  rw [leaves, if_neg (by simp [h])]

/-- Leaves have no children, and what holds everywhere holds of them. -/
theorem Everywhere.of_mem_leaves (h : t.Everywhere P) :
    ∀ leaf ∈ t.leaves, leaf.children = [] ∧ P leaf := by
  induction t with
  | mk rule start stop children ih =>
    intro leaf hleaf
    by_cases hnil : children = []
    · rw [leaves_of_nil hnil, List.mem_singleton] at hleaf
      exact hleaf ▸ ⟨hnil, h.here⟩
    · rw [leaves_of_ne_nil hnil] at hleaf
      obtain ⟨child, hchild, hleaf⟩ := List.mem_flatMap.1 hleaf
      exact ih child hchild (h.child hchild) leaf hleaf

end SearchQuery.ParseTree
