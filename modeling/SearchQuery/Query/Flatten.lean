import SearchQuery.Query.Basic

/-!
# Merging nested combinations

The grammar leans to the right, so `a AND b AND c` is first read as `a AND (b AND c)`. Merging lifts
the children of a nested combination with the same operator into their parent, in place.
-/

namespace SearchQuery.Query

/-- What a child contributes to a parent with the operator `p`: its own children if it has the same
operator, else itself. -/
def operandsOf (p : Connective) (child : Query) : List Query :=
  match child with
  | logic q children => if q = p then children else [child]
  | _ => [child]

/-- Merges the children that have the operator of their parent, one level deep. -/
def flatten : Query → Query
  | logic p children => logic p (children.flatMap (operandsOf p))
  | q => q

@[simp] theorem operandsOf_text (p : Connective) (v : String) :
    operandsOf p (text v) = [text v] := rfl

@[simp] theorem operandsOf_keyword (p : Connective) (k v : String) :
    operandsOf p (keyword k v) = [keyword k v] := rfl

@[simp] theorem operandsOf_logic_self (p : Connective) (children : List Query) :
    operandsOf p (logic p children) = children := by
  simp [operandsOf]

@[simp] theorem operandsOf_logic_of_ne {p q : Connective} (h : q ≠ p) (children : List Query) :
    operandsOf p (logic q children) = [logic q children] := by
  simp [operandsOf, h]

@[simp] theorem operator?_flatten (q : Query) : q.flatten.operator? = q.operator? := by
  cases q <;> rfl

end SearchQuery.Query
