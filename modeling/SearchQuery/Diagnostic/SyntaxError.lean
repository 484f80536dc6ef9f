import SearchQuery.Syntax.Failure
import SearchQuery.Text.Line

/-!
# Queries that cannot be read

A syntax error cuts the query in two at the place of the failure and lists what would have been
accepted there. Position, line, column and all texts are computed from that.

## Main definitions

* `SyntaxError` — the cut query with the expected items.
* `SyntaxError.at?` — a syntax error at a byte position.
* `SyntaxError.brief`, `SyntaxError.detailed` — its texts, in one line and with an excerpt.
* `SyntaxError.hint?` — advice on how to mend the query.
-/

namespace SearchQuery

/-- A query that failed at a place, and what was expected there. -/
structure SyntaxError where
  /-- The characters before the failure. -/
  before : List Char
  /-- The characters after it. -/
  after : List Char
  /-- What would have been accepted, in the order it was looked for. -/
  expected : List Expected
deriving DecidableEq

def Text.alternatives : List String → String
  | [] => "nothing"
  | [only] => only
  | [first, second] => first ++ " or " ++ second
  | items => ", ".intercalate items.dropLast ++ ", or " ++ items.getLastD ""

namespace SyntaxError

/-- The error of a query whose reading ended with the report `r`. -/
def ofReport (s : String) (r : Report) : SyntaxError :=
  ⟨(Cursor.start s).upTo r.furthest, r.furthest.rest, r.expected⟩

/-- An error after `position` bytes of `s`, or at its end if it is shorter. There is none inside a
character. -/
def at? (s : String) (position : Nat) (expected : List Expected) : Option SyntaxError :=
  (Text.splitAtByte? s.toList position).map fun (before, after) => ⟨before, after, expected⟩

def input (e : SyntaxError) : List Char := e.before ++ e.after

def position (e : SyntaxError) : Nat := Text.byteCount e.before

def line (e : SyntaxError) : Nat := Text.lineAfter e.before

def column (e : SyntaxError) : Nat := Text.columnAfter e.before

/-! ## Texts -/

def wanted (e : SyntaxError) : String := Text.alternatives (e.expected.map Expected.describe)

def brief (e : SyntaxError) : String :=
  s!"Line {e.line}, col {e.column}: expected {e.wanted}"

def label (e : SyntaxError) : String := "Invalid Query: " ++ e.brief

def excerpt (e : SyntaxError) : List Char := (Text.lines e.input).getD (e.line - 1) []

def gutter (e : SyntaxError) : String := s!"> {e.line} | "

/-- The error with an excerpt of the query and a caret under the place of the failure. -/
def detailed (e : SyntaxError) : String :=
  let pad := String.ofList (List.replicate (e.gutter.length + e.column - 1) ' ')
  s!"Line {e.line}, col {e.column}:\n" ++ e.gutter ++ String.ofList e.excerpt ++ "\n"
    ++ pad ++ "^\nExpected " ++ e.wanted

/-! ## Hints -/

inductive Hint where
  | closeQuote
  | closeParenthesis
  | giveValue
deriving DecidableEq, Repr

def Hint.text : Hint → String
  | closeQuote => "Add a closing quote (\") to complete the phrase"
  | closeParenthesis => "Add a closing parenthesis ) to match the opening one"
  | giveValue => "Keyword filters need a value, e.g. 'type:video' or 'title:\"a b\"'"

/-- Whether the part before the failure ends with a colon, white space apart. -/
def stopsAfterColon (e : SyntaxError) : Bool :=
  (e.before.reverse.dropWhile Text.isWhiteSpace).head? == some ':'

/-- The first advice that fits: an odd quote, then an open parenthesis, then a missing value. -/
def hint? (e : SyntaxError) : Option Hint :=
  if e.input.count '"' % 2 = 1 then some .closeQuote
  else if e.input.count ')' < e.input.count '(' then some .closeParenthesis
  else if e.stopsAfterColon then some .giveValue
  else none

end SyntaxError

end SearchQuery
