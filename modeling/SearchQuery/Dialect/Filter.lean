import SearchQuery.Query.Basic
import SearchQuery.Semantics.Basic

/-!
# Filter expressions

A semantics that turns a query into an expression of a filter language. Free text becomes a match
on the field `text`, a keyword filter becomes a test for equality, and words next to each other are
all required.
-/

namespace SearchQuery.Filter

/-- An operand of an operator: a group stands as it is, anything else is text to match. -/
def operand (value : String) : String :=
  if value.toList.head? = some '(' ∧ value.toList.getLast? = some ')' then value
  else "text ~= \"" ++ value ++ "\""

def binary (operator : Connective) (left right : String) : String :=
  "(" ++ operand left ++ ") " ++ operator.keyword ++ " (" ++ operand right ++ ")"

def equality (key value : String) : String := "(" ++ key ++ " = \"" ++ value ++ "\")"

def semantics : Semantics (Except QueryError) String where
  logicalAnd left _ right := return binary .and (← left.value) (← right.value)
  logicalOr left _ right := return binary .or (← left.value) (← right.value)
  logicalJoin left right := return binary .and (← left.value) (← right.value)
  paren _ inner _ := inner.value
  quote _ inner _ := inner.value
  keywordQuoted key _ value _ := return equality key.text value.text
  keywordSimple key _ value := return equality key.text value.text
  spaced left _ right := return left.text ++ " " ++ right.text
  ident leaf := return leaf.text

end SearchQuery.Filter
