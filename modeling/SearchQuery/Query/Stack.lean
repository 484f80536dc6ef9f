import SearchQuery.Query.Parse

/-!
# A stack of queries

Queries can be built step by step on a stack. A step that needs more queries than there are, or
whose text is no query, leaves the stack as it was.

## Main definitions

* `Step` — what can be done with a stack.
* `Step.run` — the stack after a step.
-/

namespace SearchQuery

inductive Step where
  /-- Pushes a query. -/
  | push (q : Query)
  /-- Replaces the topmost `n` queries by their combination, the deepest first. -/
  | combine (operator : Connective) (n : Nat)
  /-- Pushes the query written in a text. -/
  | parse (s : String)
  /-- Merges combinations at the top, one level deep. -/
  | flatten
  /-- Pushes the top once more. -/
  | duplicate
  /-- Drops the top. -/
  | pop
  /-- Writes the top and reads it back. -/
  | reparse
  /-- Looks whether the two topmost queries are equal. -/
  | compare
deriving DecidableEq

inductive Step.Outcome where
  /-- The stack after the step, top first. -/
  | done (stack : List Query)
  /-- Whether the two topmost queries are equal. -/
  | compared (equal : Bool)
  /-- A text could not be read. -/
  | unread (e : QueryError)
  /-- There are too few queries. -/
  | shallow
deriving DecidableEq

namespace Step

/-- Does a step on a stack, given top first. -/
def run : (step : Step) → (stack : List Query) → Outcome
  | push q, stack => .done (q :: stack)
  | combine operator n, stack =>
    if n ≤ stack.length then .done (.logic operator (stack.take n).reverse :: stack.drop n)
    else .shallow
  | parse s, stack => pushed (Query.parse s) stack
  | flatten, q :: stack => .done (q.flatten :: stack)
  | duplicate, q :: stack => .done (q :: q :: stack)
  | pop, _ :: stack => .done stack
  | reparse, q :: stack => pushed q.reparse stack
  | compare, p :: q :: _ => .compared (p = q)
  | _, _ => .shallow
where
  /-- Pushes a query if it could be read. -/
  pushed : Except QueryError Query → List Query → Outcome
    | .ok q, stack => .done (q :: stack)
    | .error e, _ => .unread e

def Outcome.stack (before : List Query) : Outcome → List Query
  | done stack => stack
  | _ => before

end Step

end SearchQuery
