import SearchQuery.Semantics.Basic

/-!
# Handlers and the nodes they are made for

A handler is called for each node. If the node has as many children as its rule says, the handler
is given the parts it is made for, and the value of the node is what the handler makes of them.

## Main definitions

* `Handler.arity` — how many parts a handler is made for.
* `Semantics.Handles` — what each handler makes of its parts.
* `Semantics.parts` — the parts of a node.

Main statement: `Semantics.handles_eval`.
-/

namespace SearchQuery

/-- How many parts a handler is made for. A leaf is the one part of its handler. -/
def Handler.arity : Handler → Nat
  | keywordQuoted => 4
  | logicalAnd | logicalOr | paren | quote | keywordSimple | spaced => 3
  | logicalJoin => 2
  | exp | logicalExp | priExp | spacedString | ident | terminal => 1

/-- A handler is made for the children of a node or, if there are none, for the node itself. -/
theorem Handler.arity_ofRule (r : Rule) : (ofRule r).arity = max 1 r.arity := by
  cases r <;> rfl

namespace Semantics

variable {m : Type → Type} [MonadExceptOf QueryError m] {α : Type} (S : Semantics m α)

/-- What each handler makes of the parts that it is made for. -/
inductive Handles : Handler → List (Part m α) → m α → Prop where
  | exp (inner : Part m α) : Handles .exp [inner] (S.exp inner)
  | logicalAnd (left operator right : Part m α) :
    Handles .logicalAnd [left, operator, right] (S.logicalAnd left operator right)
  | logicalOr (left operator right : Part m α) :
    Handles .logicalOr [left, operator, right] (S.logicalOr left operator right)
  | logicalJoin (left right : Part m α) :
    Handles .logicalJoin [left, right] (S.logicalJoin left right)
  | logicalExp (inner : Part m α) : Handles .logicalExp [inner] (S.logicalExp inner)
  | paren (opening inner closing : Part m α) :
    Handles .paren [opening, inner, closing] (S.paren opening inner closing)
  | quote (opening inner closing : Part m α) :
    Handles .quote [opening, inner, closing] (S.quote opening inner closing)
  | priExp (inner : Part m α) : Handles .priExp [inner] (S.priExp inner)
  | keywordQuoted (key opening value closing : Part m α) :
    Handles .keywordQuoted [key, opening, value, closing]
      (S.keywordQuoted key opening value closing)
  | keywordSimple (key colon value : Part m α) :
    Handles .keywordSimple [key, colon, value] (S.keywordSimple key colon value)
  | spaced (left gap right : Part m α) :
    Handles .spaced [left, gap, right] (S.spaced left gap right)
  | spacedString (first : Part m α) : Handles .spacedString [first] (S.spacedString first)
  | ident (leaf : Part m α) : Handles .ident [leaf] (S.ident leaf.tree)
  | terminal (leaf : Part m α) : Handles .terminal [leaf] (S.terminal leaf.tree)

/-- With the right number of parts, the handler is called. -/
theorem handles_call : (h : Handler) → (ps : List (Part m α)) → ps.length = h.arity →
    S.Handles h ps (S.call h ps)
  | .exp, [inner], _ => .exp inner
  | .logicalAnd, [left, operator, right], _ => .logicalAnd left operator right
  | .logicalOr, [left, operator, right], _ => .logicalOr left operator right
  | .logicalJoin, [left, right], _ => .logicalJoin left right
  | .logicalExp, [inner], _ => .logicalExp inner
  | .paren, [opening, inner, closing], _ => .paren opening inner closing
  | .quote, [opening, inner, closing], _ => .quote opening inner closing
  | .priExp, [inner], _ => .priExp inner
  | .keywordQuoted, [key, opening, value, closing], _ => .keywordQuoted key opening value closing
  | .keywordSimple, [key, colon, value], _ => .keywordSimple key colon value
  | .spaced, [left, gap, right], _ => .spaced left gap right
  | .spacedString, [first], _ => .spacedString first
  | .ident, [leaf], _ => .ident leaf
  | .terminal, [leaf], _ => .terminal leaf

/-- The parts of a node: its children, or the node itself if it has none. -/
def parts (t : ParseTree) : List (Part m α) :=
  if t.children.isEmpty then [⟨t, throw .selfReference⟩] else t.children.map S.part

variable {t : ParseTree}

/-- The value of a tree is what its handler makes of its parts. -/
theorem eval_eq_call (t : ParseTree) : S.eval t = S.call (.ofRule t.rule) (S.parts t) := by
  rw [eval, parts]
  cases t.children <;> rfl

theorem length_parts (h : t.children.length = t.rule.arity) :
    (S.parts t).length = (Handler.ofRule t.rule).arity := by
  rw [Handler.arity_ofRule, ← h, parts]
  cases t.children <;> simp

/-- The value of a node with as many children as its rule says is given by its handler. -/
theorem handles_eval (h : t.children.length = t.rule.arity) :
    S.Handles (.ofRule t.rule) (S.parts t) (S.eval t) := by
  rw [eval_eq_call]
  exact S.handles_call _ _ (S.length_parts h)

end Semantics

end SearchQuery
