import SearchQuery.Diagnostic.QueryError
import SearchQuery.Syntax.Recognition

/-!
# Meaning of parse trees

A semantics has one handler for each alternative of the grammar. A handler is given the children of
the node as parts, and decides for each part whether to use its text or its value under the same
semantics. Any number of semantics share the one grammar, each with its own type of values.

## Main definitions

* `Part` — a child as its parent's handler sees it.
* `Handler` — the names of the handlers.
* `Semantics` — a table of handlers.
* `Semantics.eval`, `Semantics.evaluate` — the value of a tree and of a query.
-/

namespace SearchQuery

def ParseTree.ofQuery (s : String) : Except QueryError ParseTree :=
  match Economical.recognize s with
  | .ok tree => .ok tree
  | .error report => .error (.malformed (.ofReport s report))

theorem ParseTree.ofQuery_of_toOption {s : String} {t : ParseTree}
    (h : (ofQuery s).toOption = some t) : ofQuery s = .ok t := by
  cases hs : ofQuery s with
  | error e => simp [hs, Except.toOption] at h
  | ok t' =>
    rw [hs] at h
    exact congrArg _ (Option.some.inj h)

/-- A child of a node, with the value it has under the semantics at work. -/
structure Part (m : Type → Type) (α : Type) where
  tree : ParseTree
  value : m α

def Part.text {m : Type → Type} {α : Type} (p : Part m α) : String := p.tree.text

/-! ## Handlers -/

/-- What a semantics has to say something about. -/
inductive Handler where
  | exp
  | logicalAnd
  | logicalOr
  | logicalJoin
  | logicalExp
  | paren
  | quote
  | priExp
  | keywordQuoted
  | keywordSimple
  | spaced
  | spacedString
  | ident
  | terminal
deriving DecidableEq, Repr

namespace Handler

def all : List Handler :=
  [exp, logicalAnd, logicalOr, logicalJoin, logicalExp, paren, quote, priExp, keywordQuoted,
    keywordSimple, spaced, spacedString, ident, terminal]

def name : Handler → String
  | exp => "exp"
  | logicalAnd => "logical_and"
  | logicalOr => "logical_or"
  | logicalJoin => "logical_join"
  | logicalExp => "logical_exp"
  | paren => "paren"
  | quote => "quote"
  | priExp => "pri_exp"
  | keywordQuoted => "keyword_quoted"
  | keywordSimple => "keyword_simple"
  | spaced => "spaced"
  | spacedString => "spaced_string"
  | ident => "ident"
  | terminal => "terminal"

def ofName? (s : String) : Option Handler := all.find? (·.name == s)

@[simp] theorem ofName?_name (h : Handler) : ofName? h.name = some h := by cases h <;> decide

/-- The handler of the nodes that a rule produces. Fixed texts and blanks share one. -/
def ofRule : Rule → Handler
  | .exp => exp
  | .logicalAnd => logicalAnd
  | .logicalOr => logicalOr
  | .logicalJoin => logicalJoin
  | .logicalExp => logicalExp
  | .paren => paren
  | .quote => quote
  | .priExp => priExp
  | .keywordQuoted => keywordQuoted
  | .keywordSimple => keywordSimple
  | .spaced => spaced
  | .spacedString => spacedString
  | .ident => ident
  | .spaces | .terminal => terminal

end Handler

namespace QueryError

def missingAction (r : Rule) : QueryError :=
  rejected ("missing semantic action for " ++ r.name)

/-- The value of a leaf is asked for while its handler is giving it. -/
def selfReference : QueryError := rejected "self eval"

def wrongParts (h : Handler) (n : Nat) : QueryError :=
  rejected s!"{h.name} called with {n} parts"

end QueryError

/-- One handler for each alternative of the grammar. Where a node has a single child, the child's
value is passed on unless the semantics says otherwise. Fixed texts and blanks have no value. -/
structure Semantics (m : Type → Type) [MonadExceptOf QueryError m] (α : Type) where
  exp (inner : Part m α) : m α := inner.value
  logicalAnd (left operator right : Part m α) : m α
  logicalOr (left operator right : Part m α) : m α
  logicalJoin (left right : Part m α) : m α
  logicalExp (inner : Part m α) : m α := inner.value
  paren (opening inner closing : Part m α) : m α
  quote (opening inner closing : Part m α) : m α
  priExp (inner : Part m α) : m α := inner.value
  keywordQuoted (key opening value closing : Part m α) : m α
  keywordSimple (key colon value : Part m α) : m α
  spaced (left gap right : Part m α) : m α
  spacedString (first : Part m α) : m α := first.value
  ident (leaf : ParseTree) : m α
  terminal (leaf : ParseTree) : m α := throw (.missingAction leaf.rule)

namespace Semantics

variable {m : Type → Type} [MonadExceptOf QueryError m] {α : Type} (S : Semantics m α)

def call (h : Handler) (parts : List (Part m α)) : m α :=
  match h, parts with
  | .exp, [inner] => S.exp inner
  | .logicalAnd, [left, operator, right] => S.logicalAnd left operator right
  | .logicalOr, [left, operator, right] => S.logicalOr left operator right
  | .logicalJoin, [left, right] => S.logicalJoin left right
  | .logicalExp, [inner] => S.logicalExp inner
  | .paren, [opening, inner, closing] => S.paren opening inner closing
  | .quote, [opening, inner, closing] => S.quote opening inner closing
  | .priExp, [inner] => S.priExp inner
  | .keywordQuoted, [key, opening, value, closing] => S.keywordQuoted key opening value closing
  | .keywordSimple, [key, colon, value] => S.keywordSimple key colon value
  | .spaced, [left, gap, right] => S.spaced left gap right
  | .spacedString, [first] => S.spacedString first
  | .ident, [leaf] => S.ident leaf.tree
  | .terminal, [leaf] => S.terminal leaf.tree
  | h, parts => throw (.wrongParts h parts.length)

/-- The value of a tree: its handler is called with the children, or with the leaf itself, which
has no value yet. -/
def eval (t : ParseTree) : m α :=
  let parts := t.children.map fun c => ⟨c, eval c⟩
  S.call (.ofRule t.rule) (if parts.isEmpty then [⟨t, throw .selfReference⟩] else parts)
termination_by sizeOf t
decreasing_by exact ParseTree.sizeOf_lt_of_mem_children (by assumption)

def part (t : ParseTree) : Part m α := ⟨t, S.eval t⟩

theorem eval_leaf (rule : Rule) (start stop : Cursor) :
    S.eval (.leaf rule start stop) =
      S.call (.ofRule rule) [⟨.leaf rule start stop, throw .selfReference⟩] := by
  rw [eval]
  rfl

theorem eval_node (rule : Rule) (first : ParseTree) (others : List ParseTree) :
    S.eval (.node rule first others) =
      S.call (.ofRule rule) ((first :: others).map S.part) := by
  rw [eval]
  rfl

def evaluate [Monad m] (s : String) : m α :=
  match ParseTree.ofQuery s with
  | .ok tree => S.eval tree
  | .error e => throw e

end Semantics

end SearchQuery
