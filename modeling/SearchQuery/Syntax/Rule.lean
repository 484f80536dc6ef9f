/-!
# Rules of the query grammar

A rule names one alternative of the grammar, and every node of a parse tree is labelled with the
rule that produced it. The alternatives themselves are listed in `SearchQuery.Syntax.Grammar`.
-/

namespace SearchQuery

/-- An alternative of the grammar, or a kind of leaf. -/
inductive Rule where
  /-- A whole expression. -/
  | exp
  /-- An operand, `AND` and what follows. -/
  | logicalAnd
  /-- An operand, `OR` and what follows. -/
  | logicalOr
  /-- An operand and what follows, with no operator between them. -/
  | logicalJoin
  /-- A lone operand. -/
  | logicalExp
  /-- An expression in parentheses. -/
  | paren
  /-- An expression in double quotes. -/
  | quote
  /-- A keyword filter or an identifier as an operand. -/
  | priExp
  /-- A keyword filter whose value is in double quotes. -/
  | keywordQuoted
  /-- A keyword filter whose value is one identifier. -/
  | keywordSimple
  /-- Identifiers, blanks and one more identifier. -/
  | spaced
  /-- The first identifier of a quoted value. -/
  | spacedString
  /-- A letter and the letters and digits after it. -/
  | ident
  /-- The blanks between two identifiers of a quoted value. -/
  | spaces
  /-- A fixed text such as `AND` or `(`. -/
  | terminal
deriving DecidableEq, Repr

namespace Rule

def all : List Rule :=
  [exp, logicalAnd, logicalOr, logicalJoin, logicalExp, paren, quote, priExp, keywordQuoted,
    keywordSimple, spaced, spacedString, ident, spaces, terminal]

@[simp] theorem mem_all (r : Rule) : r ∈ all := by cases r <;> decide

def index (r : Rule) : Nat := all.idxOf r

/-- The name of a rule in messages: that of its category, then the label of the alternative. -/
def name : Rule → String
  | exp => "Exp"
  | logicalAnd => "LogicalExp_and"
  | logicalOr => "LogicalExp_or"
  | logicalJoin => "LogicalExp_join"
  | logicalExp => "LogicalExp"
  | paren => "PriExp_paren"
  | quote => "PriExp_quote"
  | priExp => "PriExp"
  | keywordQuoted => "KeywordExp_quoted"
  | keywordSimple => "KeywordExp_simple"
  | spaced => "spacedString_spaced"
  | spacedString => "spacedString"
  | ident => "ident"
  | spaces => "spaces"
  | terminal => "_terminal"

def ofName? (s : String) : Option Rule := all.find? (·.name == s)

/-- Names tell rules apart. -/
@[simp] theorem ofName?_name (r : Rule) : ofName? r.name = some r := by cases r <;> decide

def arity : Rule → Nat
  | keywordQuoted => 4
  | logicalAnd | logicalOr | paren | quote | keywordSimple | spaced => 3
  | logicalJoin => 2
  | exp | logicalExp | priExp | spacedString => 1
  | ident | spaces | terminal => 0

/-- A rule skips blanks before each of its items exactly if its name begins with a capital. -/
def isSyntactic (r : Rule) : Bool := r.name.toList.head?.any Char.isUpper

end Rule

end SearchQuery
