/-! # Decimal digits

Reading and writing natural numbers in decimal. The reader takes an optional plus sign and any
number of leading zeros, and a limit above which a number is refused.
-/
namespace Rehearsal.Text

def digit? (c : Char) : Option Nat :=
  if '0' ≤ c ∧ c ≤ '9' then some (c.toNat - 48) else none

/-- The number written by digits alone, continuing from `acc`. -/
def digitsFrom? (acc : Nat) : List Char → Option Nat
  | [] => some acc
  | c :: cs => (digit? c).bind fun d => digitsFrom? (10 * acc + d) cs

/-- The number written by one digit or more. -/
def digits? : List Char → Option Nat
  | [] => none
  | cs => digitsFrom? 0 cs

/-- A natural number of at most `limit`, with an optional plus sign before its digits. -/
def natural? (limit : Nat) (s : String) : Option Nat :=
  let digits := match s.toList with
    | '+' :: rest => rest
    | cs => cs
  (digits? digits).filter (· ≤ limit)

/-- The largest number of 64 bits. -/
def wordMax : Nat := 18446744073709551615

def digitChar (d : Nat) : Char := Char.ofNat (48 + d % 10)

/-- The decimal digits of a number, least first; `fuel` bounds their count. -/
def digitsLeast : Nat → Nat → List Char
  | 0, _ => []
  | fuel + 1, n => digitChar n :: if n < 10 then [] else digitsLeast fuel (n / 10)

def decimal (n : Nat) : String := String.ofList (digitsLeast (n + 1) n).reverse

/-- At least `width` digits, padded with zeros. -/
def padded (width n : Nat) : String :=
  let digits := (digitsLeast (n + 1) n).reverse
  String.ofList (List.replicate (width - digits.length) '0' ++ digits)

def hexDigit (n : Nat) : Char :=
  if n % 16 < 10 then Char.ofNat (48 + n % 16) else Char.ofNat (87 + n % 16)

def hexValue? (c : Char) : Option Nat :=
  if '0' ≤ c ∧ c ≤ '9' then some (c.toNat - 48)
  else if 'a' ≤ c ∧ c ≤ 'f' then some (c.toNat - 87)
  else if 'A' ≤ c ∧ c ≤ 'F' then some (c.toNat - 55)
  else none

end Rehearsal.Text
