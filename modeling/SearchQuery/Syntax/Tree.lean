import SearchQuery.Syntax.Rule
import SearchQuery.Text.Cursor

/-!
# Parse trees

A node records the rule that matched, the cursors before and after the match, and its children in
the order of the text. Text and span of a node are read off its two cursors.

## Main definitions

* `ParseTree.leaf`, `ParseTree.node` — a match without and with children.
* `ParseTree.text`, `ParseTree.span` — what a node covers.
* `ParseTree.preorder` — all nodes with their depths, parents first.
* `ParseTree.descend?` — the node that a path of child numbers leads to.
-/

namespace SearchQuery

structure ParseTree where
  /-- The rule that matched. -/
  rule : Rule
  /-- The place before the first character of the match. -/
  start : Cursor
  /-- The place after the last character of the match. -/
  stop : Cursor
  children : List ParseTree

namespace ParseTree

/-- A match without parts. -/
def leaf (rule : Rule) (start stop : Cursor) : ParseTree := ⟨rule, start, stop, []⟩

/-- A match that runs from its first part to its last. -/
def node (rule : Rule) (first : ParseTree) (others : List ParseTree) : ParseTree :=
  ⟨rule, first.start, (others.getLastD first).stop, first :: others⟩

@[simp] theorem start_node (rule : Rule) (first : ParseTree) (others : List ParseTree) :
    (node rule first others).start = first.start := rfl

@[simp] theorem stop_node (rule : Rule) (first : ParseTree) (others : List ParseTree) :
    (node rule first others).stop = (others.getLastD first).stop := rfl

/-- A property holds of all trees if it passes from the children of a node to the node. -/
@[elab_as_elim, induction_eliminator]
theorem induction {motive : ParseTree → Prop}
    (mk : ∀ rule start stop children, (∀ t ∈ children, motive t) →
      motive ⟨rule, start, stop, children⟩) :
    ∀ t, motive t
  | ⟨rule, start, stop, children⟩ => mk rule start stop children fun t _ => induction mk t

/-- A child is smaller than its parent. -/
theorem sizeOf_lt_of_mem_children {t c : ParseTree} (h : c ∈ t.children) : sizeOf c < sizeOf t := by
  have := List.sizeOf_lt_of_mem h
  cases t
  simp at *
  omega

def text (t : ParseTree) : String := String.ofList (t.start.upTo t.stop)

/-- The byte offsets between which a node lies. -/
def span (t : ParseTree) : Nat × Nat := (t.start.offset, t.stop.offset)

def preorder (t : ParseTree) (depth : Nat) : List (Nat × ParseTree) :=
  (depth, t) :: t.children.flatMap fun c => preorder c (depth + 1)
termination_by sizeOf t
decreasing_by exact sizeOf_lt_of_mem_children (by assumption)

/-- The node reached from `t` by taking the child with each number of the path in turn. -/
def descend? (t : ParseTree) : (path : List Nat) → Option ParseTree
  | [] => some t
  | i :: path => t.children[i]?.bind (·.descend? path)

end ParseTree

end SearchQuery
