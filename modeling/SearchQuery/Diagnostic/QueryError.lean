import SearchQuery.Diagnostic.SyntaxError

/-!
# Queries without a value

Evaluating a query fails in two ways. Either the query cannot be read, or it can be read and is
turned down for its meaning.
-/

namespace SearchQuery

inductive QueryError where
  /-- The query cannot be read. -/
  | malformed (e : SyntaxError)
  /-- The query was read and turned down, for the reason given in `message`. -/
  | rejected (message : String)
deriving DecidableEq

namespace QueryError

def message : QueryError → String
  | malformed e => e.brief
  | rejected message => message

def label : QueryError → String
  | malformed e => e.label
  | rejected message => "invalid query: " ++ message

/-- Advice on how to mend the query. Only syntax errors have one. -/
def hint? : QueryError → Option SyntaxError.Hint
  | malformed e => e.hint?
  | rejected _ => none

end QueryError

end SearchQuery
