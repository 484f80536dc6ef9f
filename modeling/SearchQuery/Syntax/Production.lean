import SearchQuery.Syntax.Attempt
import SearchQuery.Syntax.Failure
import SearchQuery.Syntax.Grammar
import SearchQuery.Syntax.Tree

/-!
# Productions of the grammar

One function for each category reads a text of that category at a cursor. An attempt that fails
leaves no tree, but what it looked for stays noted in the state, so the next alternative starts
from the same cursor and a larger record.

The productions are open in two respects, gathered in a `Recognizer`: where failures are noted, and
how a `LogicalExp` is read. Closing the recursion in different ways gives recognizers with the same
grammar and different economy. Keyword filters hold no `LogicalExp`, so they depend on the notes
alone.

## Main definitions

* `Recognizer` — what the productions rely on.
* `Recognizer.logicalAlternatives` — one round of the recursion.
* `Recognizer.whole` — a whole query.
-/

namespace SearchQuery

/-- What the productions rely on. -/
structure Recognizer (σ : Type) where
  /-- Adds a failure to the state. -/
  note : Failure → σ → σ
  /-- Reads a `LogicalExp` that begins exactly at a cursor. -/
  logicalAt : Cursor → Attempt σ ParseTree

namespace Recognizer

variable {σ : Type} (note : Failure → σ → σ) (R : Recognizer σ)

/-! ## Leaves -/

def miss {α : Type} (c : Cursor) (e : Expected) : Attempt σ α := .failAfter (note ⟨c, e⟩)

/-- The text `s` exactly at `c`. -/
def literal (s : String) (c : Cursor) : Attempt σ ParseTree :=
  match c.literal? s with
  | some d => pure (.leaf .terminal c d)
  | none => miss note c (.literal s)

theorem literal_of_some {s : String} {c d : Cursor} (h : c.literal? s = some d) :
    literal note s c = pure (.leaf .terminal c d) := by
  rw [literal, h]

theorem literal_of_none {s : String} {c : Cursor} (h : c.literal? s = none) :
    literal note s c = miss note c (.literal s) := by
  rw [literal, h]

/-- The text `s` after blanks. -/
def token (s : String) (c : Cursor) : Attempt σ ParseTree := literal note s c.skipBlanks

def ident (c : Cursor) : Attempt σ ParseTree :=
  match c.word? with
  | some d => pure (.leaf .ident c d)
  | none => miss note c (.described identDescription)

theorem ident_of_some {c d : Cursor} (h : c.word? = some d) :
    ident note c = pure (.leaf .ident c d) := by
  rw [ident, h]

theorem ident_of_none {c : Cursor} (h : c.word? = none) :
    ident note c = miss note c (.described identDescription) := by
  rw [ident, h]

/-! ## Keyword filters -/

/-- Extends `string` by blanks and an identifier as long as another identifier follows. -/
def spacedTail (string : ParseTree) : Attempt σ ParseTree :=
  let gap := string.stop.skipBlanks
  match h : gap.word? with
  | some d =>
    spacedTail (.node .spaced string [.leaf .spaces string.stop gap, .leaf .ident gap d])
  | none => miss note gap (.described identDescription) <|> pure string
termination_by string.stop.remaining
decreasing_by
  exact Nat.lt_of_lt_of_le (Cursor.remaining_lt_of_word? h) (Cursor.remaining_skipBlanks_le _)

def spacedString (c : Cursor) : Attempt σ ParseTree := do
  let first ← ident note c
  spacedTail note (.node .spacedString first [])

def keywordQuoted (key : ParseTree) : Attempt σ ParseTree := do
  let opening ← token note ":\"" key.stop
  let value ← spacedString note opening.stop.skipBlanks
  let closing ← token note "\"" value.stop
  return .node .keywordQuoted key [opening, value, closing]

def keywordSimple (key : ParseTree) : Attempt σ ParseTree := do
  let colon ← token note ":" key.stop
  let value ← ident note colon.stop.skipBlanks
  return .node .keywordSimple key [colon, value]

/-- A keyword filter. Both alternatives begin with the same identifier, so it is read once. -/
def keywordExp (c : Cursor) : Attempt σ ParseTree := do
  let key ← ident note c
  keywordQuoted note key <|> keywordSimple note key

/-! ## Expressions -/

def logicalExp (c : Cursor) : Attempt σ ParseTree := R.logicalAt c.skipBlanks

def exp (c : Cursor) : Attempt σ ParseTree := do
  let inner ← R.logicalExp c
  return .node .exp inner []

def delimited (opening closing : String) (rule : Rule) (c : Cursor) : Attempt σ ParseTree := do
  let first ← literal R.note opening c
  let inner ← R.exp first.stop
  let last ← token R.note closing inner.stop
  return .node rule first [inner, last]

def single (item : Attempt σ ParseTree) : Attempt σ ParseTree := do
  return .node .priExp (← item) []

/-- An operand that begins exactly at `c`. -/
def priExp (c : Cursor) : Attempt σ ParseTree :=
  R.delimited "(" ")" .paren c
    <|> R.delimited "\"" "\"" .quote c
    <|> single (keywordExp R.note c)
    <|> single (ident R.note c)

/-- The operator `op` and what follows, after the operand `left`. -/
def connected (left : ParseTree) (op : String) (rule : Rule) : Attempt σ ParseTree := do
  let operator ← token R.note op left.stop
  let right ← R.logicalExp operator.stop
  return .node rule left [operator, right]

/-- What follows the operand `left` without an operator. -/
def joined (left : ParseTree) : Attempt σ ParseTree := do
  let right ← R.logicalExp left.stop
  return .node .logicalJoin left [right]

/-- The alternatives of `LogicalExp` at `c`. All begin with the same operand, so it is read once. -/
def logicalAlternatives (c : Cursor) : Attempt σ ParseTree := do
  let left ← R.priExp c
  R.connected left "AND" .logicalAnd
    <|> R.connected left "OR" .logicalOr
    <|> R.joined left
    <|> pure (.node .logicalExp left [])

/-- An expression that the end of the text follows, blanks apart. -/
def whole (c : Cursor) : Attempt σ ParseTree := do
  let root ← R.exp c
  let stop := root.stop.skipBlanks
  if stop.atEnd then return root else miss R.note stop .endOfInput

end Recognizer

end SearchQuery
