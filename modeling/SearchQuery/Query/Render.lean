import SearchQuery.Query.Basic

/-!
# Queries as query text

A query is written so that reading gives it back. Operators are explicit, text of several words is
quoted, and a combination inside another is put in parentheses. Inside quotes a word that begins
like an operator is put in parentheses too, so that it stays a word.

## Main definitions

* `Query.written` — the characters of a query.
* `Query.render` — the same as a string.
-/

namespace SearchQuery.Query

def parenthesized (cs : List Char) : List Char := '(' :: cs ++ [')']

def inQuotes (cs : List Char) : List Char := '"' :: cs ++ ['"']

/-- Whether a word would be read as an operator after another operand. -/
def startsWithOperator (word : List Char) : Bool :=
  "AND".toList.isPrefixOf word || "OR".toList.isPrefixOf word

def writtenWord (word : List Char) : List Char :=
  if startsWithOperator word then parenthesized word else word

/-- Free text as one operand: quoted if it has several words. -/
def writtenText (value : List Char) : List Char :=
  if value.contains ' ' then
    inQuotes ([' '].intercalate ((value.splitOn ' ').map writtenWord))
  else value

/-- A keyword filter: its value is quoted if it has several words. -/
def writtenKeyword (key value : List Char) : List Char :=
  key ++ ':' :: if value.contains ' ' then inQuotes value else value

def separator (operator : Connective) : List Char := ' ' :: operator.keyword.toList ++ [' ']

def written : Query → List Char
  | text value => writtenText value.toList
  | keyword key value => writtenKeyword key.toList value.toList
  | logic operator children =>
    (separator operator).intercalate <| children.map fun child =>
      if child.operator?.isSome then parenthesized (written child) else written child
termination_by q => sizeOf q

def render (q : Query) : String := String.ofList q.written

@[simp] theorem toList_render (q : Query) : q.render.toList = q.written := by
  simp [render]

end SearchQuery.Query
