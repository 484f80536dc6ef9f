import SearchQuery.Syntax.Rule
import SearchQuery.Text.Quoted

/-!
# The query grammar

The grammar is a list of alternatives for each category. They are tried in the order written, and
the first one whose items all match is taken. Precedence lies in this order and in right recursion
alone: `AND` is tried before `OR`, which is tried before juxtaposition.

## Main definitions

* `Category.alternatives` — the alternatives of a category.
* `grammarSource` — the grammar as text.
-/

namespace SearchQuery

inductive Category where
  | exp
  | logicalExp
  | priExp
  | keywordExp
  | spacedString
  | ident
  | spaces
deriving DecidableEq, Repr

inductive Item where
  /-- The fixed text `s`. -/
  | literal (s : String)
  /-- Any text of the category `k`. -/
  | category (k : Category)
deriving DecidableEq, Repr

/-- An ordered list of items, and the rule it produces. -/
structure Alternative where
  rule : Rule
  items : List Item
deriving DecidableEq, Repr

namespace Category

def all : List Category := [exp, logicalExp, priExp, keywordExp, spacedString, ident]

def name : Category → String
  | exp => "Exp"
  | logicalExp => "LogicalExp"
  | priExp => "PriExp"
  | keywordExp => "KeywordExp"
  | spacedString => "spacedString"
  | ident => "ident"
  | spaces => "spaces"

/-- The alternatives of a category in the order they are tried. Identifiers and blanks are classes
of text and have none. -/
def alternatives : Category → List Alternative
  | exp => [⟨.exp, [.category logicalExp]⟩]
  | logicalExp => [
      ⟨.logicalAnd, [.category priExp, .literal "AND", .category logicalExp]⟩,
      ⟨.logicalOr, [.category priExp, .literal "OR", .category logicalExp]⟩,
      ⟨.logicalJoin, [.category priExp, .category logicalExp]⟩,
      ⟨.logicalExp, [.category priExp]⟩]
  | priExp => [
      ⟨.paren, [.literal "(", .category exp, .literal ")"]⟩,
      ⟨.quote, [.literal "\"", .category exp, .literal "\""]⟩,
      ⟨.priExp, [.category keywordExp]⟩,
      ⟨.priExp, [.category ident]⟩]
  | keywordExp => [
      ⟨.keywordQuoted,
        [.category ident, .literal ":\"", .category spacedString, .literal "\""]⟩,
      ⟨.keywordSimple, [.category ident, .literal ":", .category ident]⟩]
  | spacedString => [
      ⟨.spaced, [.category spacedString, .category spaces, .category ident]⟩,
      ⟨.spacedString, [.category ident]⟩]
  | ident | spaces => []

/-- A node has one child for each item of its alternative. -/
theorem length_items (k : Category) :
    ∀ a ∈ k.alternatives, a.items.length = a.rule.arity := by
  cases k <;> decide

end Category

/-! ## The grammar as text -/

namespace Item

def source : Item → String
  | literal s => Text.quoted s
  | category k => k.name

end Item

namespace Alternative

/-- The label of an alternative is what its rule's name adds to the category's name. -/
def label (a : Alternative) (k : Category) : String :=
  String.ofList ((a.rule.name.toList.drop k.name.length).drop 1)

def source (a : Alternative) (k : Category) : String :=
  let items := " ".intercalate (a.items.map Item.source)
  if a.label k = "" then items else items ++ " -- " ++ a.label k

end Alternative

/-- The description that stands for an identifier in messages. -/
def identDescription : String := "an identifier"

namespace Category

def source (k : Category) : List String :=
  match k with
  | ident => ["  " ++ k.name ++ " (" ++ identDescription ++ ")", "    = letter alnum*"]
  | k => ("  " ++ k.name) ::
      k.alternatives.mapIdx fun i a => (if i = 0 then "    = " else "    | ") ++ a.source k

end Category

def grammarSource : String :=
  "\n".intercalate
    (["Query \x7b"] ++ List.intercalate [""] (Category.all.map Category.source) ++ ["\x7d"])

end SearchQuery
