/-!
# Double precision

Numbers of double precision without their sign, and their arithmetic: a result is the number of
double precision nearest to the exact one, of two such numbers the one with an even mantissa.

## Main definitions

* `Binary64` — a number of double precision.
* `Binary64.nearest` — the number nearest to a fraction.
* `Binary64.mul`, `Binary64.div` — products and quotients.
* `Binary64.scale` — a number times a power of ten.
-/

namespace SearchQuery

/-- The integer nearest to `num / den`, of two the even one. -/
def roundDiv (num den : Nat) : Nat :=
  let q := num / den
  let twice := 2 * (num % den)
  if twice < den then q
  else if den < twice then q + 1
  else if q % 2 = 0 then q else q + 1

/-- The number `mantissa * 2 ^ exponent` in units of the smallest number, `2 ^ -1074`. -/
structure Binary64 where
  mantissa : Nat
  exponent : Nat
deriving DecidableEq, Repr

namespace Binary64

def unitsInOne : Nat := 1 <<< 1074

def units (x : Binary64) : Nat := x.mantissa <<< x.exponent

/-- The number nearest to `num / den`, of two the one with an even mantissa. -/
def nearest (num den : Nat) : Binary64 :=
  let units := num * unitsInOne
  let exponent := Nat.log2 (units / den) - 52
  let mantissa := roundDiv units (den <<< exponent)
  if mantissa = 1 <<< 53 then ⟨1 <<< 52, exponent + 1⟩ else ⟨mantissa, exponent⟩

def mul (x y : Binary64) : Binary64 := nearest (x.units * y.units) (unitsInOne * unitsInOne)

def div (x y : Binary64) : Binary64 := nearest x.units y.units

def powerOfTen (n : Nat) : Binary64 := nearest (Nat.pow 10 n) 1

/-- `x / 10 ^ n`, by one power of ten up to `10 ^ 308`, the last that double precision has, and
step by step beyond it. -/
def divPowerOfTen (x : Binary64) (n : Nat) : Binary64 :=
  if x.mantissa = 0 then x
  else if n ≤ 308 then x.div (powerOfTen n)
  else (x.div (powerOfTen 308)).divPowerOfTen (n - 308)
termination_by n

/-- `x * 10 ^ e`. The power is rounded first, then the product or the quotient. -/
def scale (x : Binary64) : (e : Int) → Binary64
  | .ofNat n => x.mul (powerOfTen n)
  | .negSucc n => x.divPowerOfTen (n + 1)

end Binary64

end SearchQuery
