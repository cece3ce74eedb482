import Rehearsal.Decimal.Shortest

/-! # Numbers of a document

A number as it is written, and what it stands for: a natural number of 64 bits, a negative number of
64 bits, or a binary floating-point number. A numeral with a fraction or a power of ten is never
whole, and neither is minus zero.
-/
namespace Rehearsal.Json

open Decimal (Binary64 twoTo tenTo)

/-- A written number: sign, digits before and after the point, power of ten. -/
structure Numeral where
  negative : Bool
  whole : List Nat
  fraction : Option (List Nat)
  exponent : Option Int
deriving DecidableEq, Repr

inductive Number where
  | natural (n : Nat)
  | below (n : Nat)
  | real (x : Binary64)
deriving DecidableEq, Repr

namespace Numeral

/-- Reads digits into a number of 64 bits as long as they fit: the number, and the digits left. -/
def significant (acc : Nat) : List Nat → Nat × List Nat
  | [] => (acc, [])
  | d :: ds =>
    if acc * 10 + d ≤ Text.wordMax then significant (acc * 10 + d) ds else (acc, d :: ds)

/-- The digits that count and the power of ten they are to be multiplied with. Of a fraction the
digits that no longer fit are dropped; before the point each such digit is one more power of ten. -/
def decimalParts (n : Numeral) : Nat × Int :=
  let (m, restWhole) := significant 0 n.whole
  let digits := n.fraction.getD []
  let (m, restFraction) := significant m digits
  let scale : Int := restWhole.length - ((digits.length - restFraction.length : Nat) : Int)
  (m, scale + n.exponent.getD 0)

/-- Multiplies with a power of ten in steps that each round once; none when out of range. -/
def scaled (negative : Bool) : Nat → Binary64 → Int → Option Binary64
  | 0, x, _ => some { x with negative }
  | fuel + 1, x, scale =>
    let (num, den) := x.ratio
    if 308 < scale.natAbs then
      if x.isZero then some { x with negative }
      else if 0 ≤ scale then none
      else
        (Binary64.ofRatio? false (tenTo 308) 1).bind fun p =>
        let (pn, pd) := p.ratio
        (Binary64.ofRatio? false (num * pd) (den * pn)).bind fun y =>
        scaled negative fuel y (scale + 308)
    else
      (Binary64.ofRatio? false (tenTo scale.natAbs) 1).bind fun p =>
      let (pn, pd) := p.ratio
      if 0 ≤ scale then Binary64.ofRatio? negative (num * pn) (den * pd)
      else Binary64.ofRatio? negative (num * pd) (den * pn)

def real? (n : Numeral) : Option Binary64 :=
  let (m, scale) := n.decimalParts
  (Binary64.ofRatio? false m 1).bind fun x => scaled n.negative 8 x scale

/-- What the numeral stands for; none when it is too large for any number. -/
def number? (n : Numeral) : Option Number :=
  match n.fraction, n.exponent with
  | none, none =>
    let m := n.whole.foldl (fun acc d => acc * 10 + d) 0
    if n.negative = false ∧ m ≤ Text.wordMax then some (.natural m)
    else if n.negative = true ∧ 0 < m ∧ m ≤ twoTo 63 then some (.below m)
    else n.real?.map .real
  | _, _ => n.real?.map .real

end Numeral

namespace Number

def text : Number → String
  | natural n => Text.decimal n
  | below n => "-" ++ Text.decimal n
  | real x => x.text

end Number

end Rehearsal.Json
