/-!
# Decimals

Numbers in decimal digits and how they are written: with a point where the digits are, or with one
digit before the point and a power of ten behind.

## Main definitions

* `Decimal` — a number in decimal digits.
* `Decimal.positional`, `Decimal.scientific` — the two ways to write it.
* `Decimal.text` — the way that suits its size.
-/

namespace SearchQuery

/-- The number `digits * 10 ^ exponent`. -/
structure Decimal where
  digits : Nat
  exponent : Int
deriving DecidableEq, Repr

namespace Decimal

def lead (d : Decimal) : Int := (Nat.toDigits 10 d.digits).length - 1 + d.exponent

def positional (d : Decimal) : List Char :=
  let zeros := d.exponent.toNat
  let places := (-d.exponent).toNat
  let digits := Nat.toDigits 10 d.digits ++ List.replicate zeros '0'
  let padded := List.replicate (places + 1 - digits.length) '0' ++ digits
  let whole := padded.take (padded.length - places)
  let rest := padded.drop (padded.length - places)
  whole ++ '.' :: if rest.isEmpty then ['0'] else rest

/-- Scientific notation. The exponent has a sign, and a single digit has no point after it. -/
def scientific (d : Decimal) : List Char :=
  let digits := Nat.toDigits 10 d.digits
  let rest := digits.drop 1
  let sign := if d.lead < 0 then '-' else '+'
  digits.take 1 ++ (if rest.isEmpty then [] else '.' :: rest)
    ++ 'e' :: sign :: Nat.toDigits 10 d.lead.natAbs

/-- The number in positional notation from `0.00001` up to sixteen whole digits, in scientific
notation otherwise. -/
def text (d : Decimal) : String :=
  String.ofList (if -5 ≤ d.lead ∧ d.lead < 16 then d.positional else d.scientific)

end Decimal

end SearchQuery
