/-! # Binary numbers of 64 bits

The finite binary floating-point numbers of double width, as a sign, a whole significand and a power
of two. The rounding of a ratio goes to the nearest number, and to the even one of two as near.
-/
namespace Rehearsal.Decimal

def twoTo (exponent : Nat) : Nat := Nat.pow 2 exponent

def tenTo (exponent : Nat) : Nat := Nat.pow 10 exponent

/-- A finite number `± significand · 2 ^ exponent`. In its normal form the significand has 53 bits
unless the exponent is the least, -1074; zero has that exponent too. -/
structure Binary64 where
  negative : Bool
  significand : Nat
  exponent : Int
deriving DecidableEq, Repr

namespace Binary64

def leastExponent : Int := -1074

def greatestExponent : Int := 971

/-- The nearest whole number to `num / den`; a half goes to the even neighbour. -/
def nearest (num den : Nat) : Nat :=
  let q := num / den
  let twice := 2 * (num % den)
  if twice < den then q
  else if den < twice then q + 1
  else if q % 2 = 0 then q else q + 1

/-- `num / den` measured in units of `2 ^ exponent`, as a ratio. -/
def inUnits (num den : Nat) (exponent : Int) : Nat × Nat :=
  if 0 ≤ exponent then (num, den * twoTo exponent.toNat) else (num * twoTo (-exponent).toNat, den)

/-- The exponent at which `num / den` has a significand of 53 bits, the least one at the lowest. -/
def exponentOf (num den : Nat) : Int :=
  let guess : Int := (num.log2 : Int) - (den.log2 : Int) - 52
  let (n, d) := inUnits num den guess
  let exact := if n < twoTo 52 * d then guess - 1 else guess
  max exact leastExponent

/-- The number nearest to `num / den`, when it is in range. -/
def ofRatio? (negative : Bool) (num den : Nat) : Option Binary64 :=
  if num = 0 then some ⟨negative, 0, leastExponent⟩
  else
    let exponent := exponentOf num den
    let (n, d) := inUnits num den exponent
    let q := nearest n d
    let (q, exponent) := if q = twoTo 53 then (twoTo 52, exponent + 1) else (q, exponent)
    if greatestExponent < exponent then none else some ⟨negative, q, exponent⟩

def ratio (x : Binary64) : Nat × Nat :=
  if 0 ≤ x.exponent then (x.significand * twoTo x.exponent.toNat, 1)
  else (x.significand, twoTo (-x.exponent).toNat)

def wholePart (x : Binary64) : Nat := x.ratio.1 / x.ratio.2

def isWhole (x : Binary64) : Bool := x.ratio.1 % x.ratio.2 == 0

def isZero (x : Binary64) : Bool := x.significand == 0

def negate (x : Binary64) : Binary64 := { x with negative := !x.negative }

/-- Below zero; negative zero is not. -/
def isBelowZero (x : Binary64) : Bool := x.negative && !x.isZero

end Binary64

end Rehearsal.Decimal
