/-!
# Queries

A query is free text, a keyword filter, or several queries combined by an operator.

## Main definitions

* `Connective` — the two operators.
* `Query` — the tree of a query.
-/

namespace SearchQuery

inductive Connective where
  /-- Every child has to match. -/
  | and
  /-- At least one child has to match. -/
  | or
deriving DecidableEq, Repr

def Connective.keyword : Connective → String
  | and => "AND"
  | or => "OR"

inductive Query where
  /-- Free text, a word or a phrase. -/
  | text (value : String)
  /-- A filter on the field `key`. -/
  | keyword (key value : String)
  /-- A combination of queries, in the order of the text. -/
  | logic (operator : Connective) (children : List Query)
deriving Repr

namespace Query

def text? : Query → Option String
  | text value => some value
  | _ => none

def operator? : Query → Option Connective
  | logic operator _ => some operator
  | _ => none

/-- A property holds of all queries if it passes from the children of a combination to the
combination. -/
@[elab_as_elim, induction_eliminator]
theorem induction {motive : Query → Prop} (text : ∀ value, motive (text value))
    (keyword : ∀ key value, motive (keyword key value))
    (logic : ∀ operator children, (∀ q ∈ children, motive q) → motive (logic operator children)) :
    ∀ q, motive q
  | .text value => text value
  | .keyword key value => keyword key value
  | .logic operator children =>
    logic operator children fun q _ => induction text keyword logic q

/-! ## Equality -/

mutual

def decEq : (a b : Query) → Decidable (a = b)
  | text a, text b => decidable_of_iff (a = b) (by simp)
  | keyword k a, keyword l b => decidable_of_iff (k = l ∧ a = b) (by simp)
  | logic p as, logic q bs =>
    match decEqList as bs with
    | isTrue h => decidable_of_iff (p = q) (by simp [h])
    | isFalse h => isFalse (by simp [h])
  | text _, keyword _ _ | text _, logic _ _ | keyword _ _, text _ | keyword _ _, logic _ _
  | logic _ _, text _ | logic _ _, keyword _ _ => isFalse nofun

def decEqList : (as bs : List Query) → Decidable (as = bs)
  | [], [] => isTrue rfl
  | [], _ :: _ | _ :: _, [] => isFalse nofun
  | a :: as, b :: bs =>
    match decEq a b with
    | isTrue h =>
      match decEqList as bs with
      | isTrue hs => isTrue (by rw [h, hs])
      | isFalse hs => isFalse (by simp [hs])
    | isFalse h => isFalse (by simp [h])

end

instance : DecidableEq Query := decEq

end Query

end SearchQuery
