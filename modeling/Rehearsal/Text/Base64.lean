/-! # Base 64

Three bytes as four letters, the last group filled up with equality signs.
-/
namespace Rehearsal.Text.Base64

def letter (n : Nat) : Char :=
  let n := n % 64
  if n < 26 then Char.ofNat (65 + n)
  else if n < 52 then Char.ofNat (71 + n)
  else if n < 62 then Char.ofNat (n - 4)
  else if n = 62 then '+' else '/'

def encode : List UInt8 → List Char
  | [] => []
  | [a] =>
    let n := a.toNat * 16
    [letter (n / 64), letter n, '=', '=']
  | [a, b] =>
    let n := (a.toNat * 256 + b.toNat) * 4
    [letter (n / 4096), letter (n / 64), letter n, '=']
  | a :: b :: c :: rest =>
    let n := (a.toNat * 256 + b.toNat) * 256 + c.toNat
    letter (n / 262144) :: letter (n / 4096) :: letter (n / 64) :: letter n :: encode rest

end Rehearsal.Text.Base64
