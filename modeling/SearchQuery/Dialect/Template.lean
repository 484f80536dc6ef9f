import SearchQuery.Semantics.Basic

/-!
# Templates

A template gives the handlers as data: a list of pieces for each, whose texts together are the
value. Handlers note their names when they are called, so a run shows which of them had a part in
the value and in which order.

## Main definitions

* `Piece` — a fixed text, or something about one of the parts.
* `Template` — pieces for each handler.
* `Template.semantics` — the handlers that a template describes.
* `Template.evaluate` — the value of a query and the handlers called for it.
-/

namespace SearchQuery

/-- A run that notes which handlers were called, also if it fails. -/
abbrev Traced := ExceptT QueryError (StateM (List Handler))

/-- A piece of text. Parts are numbered from 0. -/
inductive Piece where
  /-- The text `s`. -/
  | text (s : String)
  /-- The value of a part. -/
  | value (i : Nat)
  /-- The text of a part, as written in the query. -/
  | raw (i : Nat)
  /-- The name of the rule that produced a part. -/
  | rule (i : Nat)
  /-- The byte offsets of a part. -/
  | span (i : Nat)
  /-- The number of children of a part. -/
  | count (i : Nat)
  /-- No text, but a failure with the text of some pieces as its message. -/
  | fail (pieces : List Piece)

structure Template where
  /-- The pieces of a handler, if the template has any for it. -/
  pieces : Handler → Option (List Piece)
  /-- Whether the handlers that may be left out are taken from the template too. -/
  complete : Bool

namespace QueryError

def noChild (i : Nat) : QueryError := rejected s!"no child {i}"

def noHandler (h : Handler) : QueryError := rejected ("no handler " ++ h.name)

end QueryError

namespace Piece

def about (parts : List (Part Traced String)) (i : Nat) (f : Part Traced String → Traced String) :
    Traced String :=
  match parts[i]? with
  | some p => f p
  | none => throw (.noChild i)

def write (parts : List (Part Traced String)) : Piece → Traced String
  | text s => return s
  | value i => about parts i Part.value
  | raw i => about parts i fun p => return p.text
  | rule i => about parts i fun p => return p.tree.rule.name
  | span i => about parts i fun p => return s!"{p.tree.span.1}..{p.tree.span.2}"
  | count i => about parts i fun p => return toString p.tree.children.length
  | fail pieces => do
    let texts ← pieces.mapM fun piece => write parts piece
    throw (.rejected (String.join texts))
termination_by piece => sizeOf piece

end Piece

namespace Template

variable (T : Template)

/-- Notes the handler and writes its pieces one after the other. -/
def run (h : Handler) (parts : List (Part Traced String)) : Traced String := do
  modify (· ++ [h])
  match T.pieces h with
  | some pieces => return String.join (← pieces.mapM (Piece.write parts))
  | none => throw (.noHandler h)

/-- A leaf as the one part of its handler. -/
def self (leaf : ParseTree) : Part Traced String := ⟨leaf, throw .selfReference⟩

def semantics : Semantics Traced String where
  exp inner := if T.complete then T.run .exp [inner] else inner.value
  logicalAnd left operator right := T.run .logicalAnd [left, operator, right]
  logicalOr left operator right := T.run .logicalOr [left, operator, right]
  logicalJoin left right := T.run .logicalJoin [left, right]
  logicalExp inner := if T.complete then T.run .logicalExp [inner] else inner.value
  paren opening inner closing := T.run .paren [opening, inner, closing]
  quote opening inner closing := T.run .quote [opening, inner, closing]
  priExp inner := if T.complete then T.run .priExp [inner] else inner.value
  keywordQuoted key opening value closing :=
    T.run .keywordQuoted [key, opening, value, closing]
  keywordSimple key colon value := T.run .keywordSimple [key, colon, value]
  spaced left gap right := T.run .spaced [left, gap, right]
  spacedString first := if T.complete then T.run .spacedString [first] else first.value
  ident leaf := T.run .ident [self leaf]
  terminal leaf :=
    if T.complete then T.run .terminal [self leaf] else throw (.missingAction leaf.rule)

/-- The value of a query, and the handlers called for it in order. -/
def evaluate (s : String) : Except QueryError String × List Handler :=
  (T.semantics.evaluate s).run.run []

end Template

end SearchQuery
