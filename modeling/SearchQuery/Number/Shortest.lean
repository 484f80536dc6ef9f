import SearchQuery.Number.Binary64
import SearchQuery.Number.Decimal

/-!
# Shortest decimals

A number of double precision stands for every number that rounds to it. Among these it is shown by
the one with the fewest digits, and of several such by the nearest.

## Main definitions

* `Binary64.interval` — the numbers that round to a number of double precision.
* `Binary64.isRounded` — whether a decimal is among them.
* `Binary64.shortest` — the shortest decimal among them.
-/

namespace SearchQuery.Binary64

/-- Four times the number, between four times the ends of the interval of numbers that round to it,
in units. -/
def interval (x : Binary64) : Nat × Nat × Nat :=
  let below := if x.mantissa = 1 <<< 52 ∧ 0 < x.exponent then 1 else 2
  ((4 * x.mantissa - below) <<< x.exponent, 4 * x.units, (4 * x.mantissa + 2) <<< x.exponent)

/-- Whether a decimal rounds to `x`. The ends of the interval do where the mantissa is even. -/
def isRounded (x : Binary64) (d : Decimal) : Bool :=
  let (low, _, high) := x.interval
  let reached := 4 * unitsInOne * d.digits * Nat.pow 10 d.exponent.toNat
  let parts := Nat.pow 10 (-d.exponent).toNat
  if x.mantissa % 2 = 0 then low * parts ≤ reached && reached ≤ high * parts
  else low * parts < reached && reached < high * parts

/-- The nearest multiple of `10 ^ e` that rounds to `x`, if any. Above a power of two the interval
reaches farther than below, so of the two multiples next to `x` the farther one may be in it alone.
-/
def onGrid? (x : Binary64) (e : Int) : Option Decimal :=
  let num := x.units * Nat.pow 10 (-e).toNat
  let den := unitsInOne * Nat.pow 10 e.toNat
  let near := roundDiv num den
  let far := 2 * (num / den) + 1 - near
  [Decimal.mk near e, Decimal.mk far e].find? x.isRounded

def grids : List Int := (List.range 633).map fun (i : Nat) => 308 - (i : Int)

def shortest (x : Binary64) : Decimal :=
  if x.mantissa = 0 then ⟨0, 0⟩ else (grids.findSome? x.onGrid?).getD ⟨0, 0⟩

end SearchQuery.Binary64
