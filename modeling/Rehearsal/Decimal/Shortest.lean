import Rehearsal.Decimal.Binary64
import Rehearsal.Text.Digits
import Rehearsal.Text.Search

/-! # Shortest decimals

The fewest digits that read back as a given binary number. A decimal reads back if it lies between
the midpoints to the number's two neighbours, a midpoint itself counting when the significand is
even. Grids of decimals are tried from one digit on; on each only the number's two neighbours matter.
-/
namespace Rehearsal.Decimal

/-- `digits · 10 ^ scale` -/
structure Shortest where
  digits : Nat
  scale : Int
deriving DecidableEq, Repr

namespace Shortest

/-- `n · 10 ^ scale` against the ratio `num / den`, both sides multiplied up to whole numbers. -/
def sides (n : Nat) (scale : Int) (num den : Nat) : Nat × Nat :=
  if 0 ≤ scale then (n * tenTo scale.toNat * den, num) else (n * den, num * tenTo (-scale).toNat)

/-- `x` in quarters of its last place, so that the midpoints are whole. -/
def quarters (x : Binary64) : Nat × Nat × Nat :=
  let low := if x.significand = twoTo 52 ∧ Binary64.leastExponent < x.exponent then 1 else 2
  let m := 4 * x.significand
  (m - low, m, m + 2)

def quarterRatio (x : Binary64) (n : Nat) : Nat × Nat :=
  if 0 ≤ x.exponent then (n * twoTo x.exponent.toNat, 4) else (n, 4 * twoTo (-x.exponent).toNat)

/-- `n · 10 ^ scale` reads back as `x`. -/
def readsBack (x : Binary64) (n : Nat) (scale : Int) : Bool :=
  let (low, _, high) := quarters x
  let (ln, ld) := quarterRatio x low
  let (hn, hd) := quarterRatio x high
  let (a, b) := sides n scale ln ld
  let (c, d) := sides n scale hn hd
  if x.significand % 2 = 0 then b ≤ a && c ≤ d else b < a && c < d

/-- The better of the two neighbours of `x` among the multiples of `10 ^ scale`, if one of them reads
back as `x`. -/
def onGrid? (x : Binary64) (scale : Int) : Option Shortest :=
  let (num, den) := x.ratio
  let (n, d) := if 0 ≤ scale then (num, den * tenTo scale.toNat) else (num * tenTo (-scale).toNat, den)
  let below := n / d
  let near := Binary64.nearest n d
  if readsBack x near scale then some ⟨near, scale⟩
  else if readsBack x below scale then some ⟨below, scale⟩
  else if readsBack x (below + 1) scale then some ⟨below + 1, scale⟩
  else none

/-- The first grid with a hit, from `scale` down. -/
def search (x : Binary64) : Nat → Int → Shortest
  | 0, scale => ⟨(x.ratio.1 * tenTo (-scale).toNat) / x.ratio.2, scale⟩
  | tries + 1, scale =>
    match onGrid? x scale with
    | some found => found
    | none => search x tries (scale - 1)

/-- A power of ten above `num / den`, found from the count of its digits. -/
def topScale (num den : Nat) : Int :=
  if den ≤ num then ((Text.digitsLeast (num + 1) (num / den)).length : Int)
  else 1 - ((Text.digitsLeast (den + 1) (den / num)).length : Int)

/-- The digits, with the zeros at their end moved to the scale; `fuel` bounds their count. -/
def stripped : Nat → Shortest → Shortest
  | 0, s => s
  | fuel + 1, s =>
    if s.digits ≠ 0 ∧ s.digits % 10 = 0 then stripped fuel ⟨s.digits / 10, s.scale + 1⟩ else s

def ofBinary (x : Binary64) : Shortest :=
  if x.significand = 0 then ⟨0, 0⟩
  else stripped 20 (search x 20 (topScale x.ratio.1 x.ratio.2))

/-- Positional when the first digit's power of ten is from -5 to 15, with at least one digit on both
sides of the point; otherwise one digit before the point and a signed power of ten. -/
def text (s : Shortest) : String :=
  let digits := Text.decimal s.digits
  let count := digits.length
  let lead : Int := s.scale + count - 1
  if s.digits = 0 then "0.0"
  else if -5 ≤ lead ∧ lead ≤ 15 then
    if 0 ≤ s.scale then digits ++ String.ofList (List.replicate s.scale.toNat '0') ++ ".0"
    else if 0 ≤ lead then
      let whole := lead.toNat + 1
      Text.joinWith "." [String.ofList (digits.toList.take whole),
        String.ofList (digits.toList.drop whole)]
    else "0." ++ String.ofList (List.replicate (-lead - 1).toNat '0') ++ digits
  else
    let mantissa := match digits.toList with
      | [] => ""
      | [d] => String.ofList [d]
      | d :: rest => String.ofList (d :: '.' :: rest)
    let sign := if lead < 0 then "-" else "+"
    mantissa ++ "e" ++ sign ++ Text.padded 2 lead.natAbs

end Shortest

def Binary64.text (x : Binary64) : String :=
  (if x.negative then "-" else "") ++ (Shortest.ofBinary x).text

end Rehearsal.Decimal
