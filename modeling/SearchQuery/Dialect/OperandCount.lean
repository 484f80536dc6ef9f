import SearchQuery.Semantics.Basic

/-!
# Counting operands

A semantics that counts the words and phrases of a query and turns keyword filters down.
-/

namespace SearchQuery

def QueryError.keywordNotAllowed (key : String) : QueryError :=
  rejected ("keyword '" ++ key ++ "' not allowed")

namespace OperandCount

def semantics : Semantics (Except QueryError) Nat where
  logicalAnd left _ right := return (← left.value) + (← right.value)
  logicalOr left _ right := return (← left.value) + (← right.value)
  logicalJoin left right := return (← left.value) + (← right.value)
  paren _ inner _ := inner.value
  quote _ inner _ := inner.value
  keywordQuoted key _ _ _ := throw (.keywordNotAllowed key.text)
  keywordSimple key _ _ := throw (.keywordNotAllowed key.text)
  spaced _ _ _ := return 1
  ident _ := return 1

end OperandCount

end SearchQuery
