import SearchQuery.Query.Flatten
import SearchQuery.Query.Render
import SearchQuery.Semantics.Basic

/-!
# Reading queries

The semantics whose values are queries. Parentheses and quotes only group. Runs of one operator
become one combination, words next to each other become one text, and anything else next to each
other is combined by `AND`.

## Main definitions

* `Query.semantics` — the handlers that build a query.
* `Query.parse` — the query written in a text.
-/

namespace SearchQuery

def QueryError.keywordValue (key : String) (value : Query) : QueryError :=
  rejected ("invalid keyword value for '" ++ key ++ "': expected text, got " ++ value.render)

namespace Query

/-- Two operands under an operator, merged with what has the same operator. -/
def combine (operator : Connective) (left right : Query) : Query :=
  flatten (logic operator [left, right])

/-- Two operands next to each other: one text if both are texts, else both required. -/
def juxtapose : (left right : Query) → Query
  | text left, text right => text (left ++ " " ++ right)
  | left, right => combine .and left right

def filter (key : String) : (value : Query) → Except QueryError Query
  | text value => .ok (keyword key value)
  | value => .error (.keywordValue key value)

def semantics : Semantics (Except QueryError) Query where
  logicalAnd left _ right := return combine .and (← left.value) (← right.value)
  logicalOr left _ right := return combine .or (← left.value) (← right.value)
  logicalJoin left right := return juxtapose (← left.value) (← right.value)
  paren _ inner _ := inner.value
  quote _ inner _ := inner.value
  keywordQuoted key _ value _ := do filter key.text (← value.value)
  keywordSimple key _ value := do filter key.text (← value.value)
  spaced left _ right := .ok (text (left.text ++ " " ++ right.text))
  ident leaf := .ok (text leaf.text)

def parse (s : String) : Except QueryError Query := semantics.evaluate s

def reparse (q : Query) : Except QueryError Query := parse q.render

end Query

end SearchQuery
