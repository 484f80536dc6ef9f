import SearchQuery.Query.Basic
import SearchQuery.Text.Quoted

/-!
# Queries as an outline

An outline has one line for each node of the query, two spaces deeper than its parent. Texts are
shown quoted, so a line never breaks.
-/

namespace SearchQuery.Query

def heading : Connective → String
  | .and => "And"
  | .or => "Or"

def outlineHead : Query → String
  | text value => "Text(" ++ Text.quoted value ++ ")"
  | keyword key value => "Keyword(" ++ Text.quoted key ++ ", " ++ Text.quoted value ++ ")"
  | logic operator _ => heading operator

def indented (depth : Nat) (line : String) : String :=
  String.ofList (List.replicate (2 * depth) ' ') ++ line

/-- The lines of a query whose root lies at `depth`. -/
def outlineLines (q : Query) (depth : Nat) : List String :=
  match q with
  | logic operator children =>
    indented depth (outlineHead (logic operator children)) ::
      children.flatMap fun child => outlineLines child (depth + 1)
  | q => [indented depth q.outlineHead]
termination_by sizeOf q

def outline (q : Query) : String :=
  String.join ((q.outlineLines 0).map (· ++ "\n"))

end SearchQuery.Query
