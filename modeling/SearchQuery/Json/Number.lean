import SearchQuery.Number.Shortest

/-!
# JSON numbers

A number is an integer of 64 bits, with or without a sign, or else a number of double precision.
It is read from its digits. A number with a point or an exponent is never an integer, and neither is
a negative zero.

## Main definitions

* `Json.Number` — a number.
* `Json.Numeral` — a number as it is written.
* `Json.Numeral.value` — the number that is written.
-/

namespace SearchQuery

namespace Json

inductive Number where
  | integer (n : Int)
  | floating (negative : Bool) (magnitude : Binary64)
deriving DecidableEq, Repr

def Number.describe : Number → String
  | integer n => s!"integer `{n}`"
  | floating negative x =>
    "floating point `" ++ (if negative then "-" else "") ++ x.shortest.text ++ "`"

/-- A number as it is written: the digits before the point, those after it and the power of ten. -/
structure Numeral where
  negative : Bool
  whole : List Nat
  places : Option (List Nat)
  exponent : Option Int
deriving DecidableEq, Repr

namespace Numeral

/-- Appends digits to `n` for as long as it stays within 64 bits. Gives the digits left over too. -/
def append (n : Nat) : (digits : List Nat) → Nat × List Nat
  | [] => (n, [])
  | d :: digits => if 10 * n + d < UInt64.size then append (10 * n + d) digits else (n, d :: digits)

def toInt? (x : Numeral) : Option Int :=
  match x.places, x.exponent, append 0 x.whole with
  | none, none, (n, []) =>
    if !x.negative then some n
    else if 0 < n ∧ n ≤ UInt64.size / 2 then some (-n)
    else none
  | _, _, _ => none

/-- The number of double precision that is written, without its sign. The digits that fit into 64
bits are its significand, which is rounded before it is scaled. -/
def magnitude (x : Numeral) : Binary64 :=
  let places := x.places.getD []
  let (whole, uncounted) := append 0 x.whole
  let (significand, ignored) := append whole places
  let taken : Int := places.length - ignored.length
  (Binary64.nearest significand 1).scale (uncounted.length - taken + x.exponent.getD 0)

def value (x : Numeral) : Number :=
  match x.toInt? with
  | some n => .integer n
  | none => .floating x.negative x.magnitude

end Numeral

end Json

end SearchQuery
