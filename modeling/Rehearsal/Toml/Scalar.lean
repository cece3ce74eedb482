import Rehearsal.Calendar.Timestamp
import Rehearsal.Json.Tree

/-! # Scalars of a TOML document

Strings, numbers, words and dates. Each reader gives what it read and the text after it. A date has no
counterpart in the tree of a document and stands there as an object, a kind that no scalar has.
-/
namespace Rehearsal.Toml

open Json (Tree Numeral)

/-- Controls that no text may hold; the tab is none of them. -/
def isControl (c : Char) : Bool := (c.toNat < 32 && c != '\t') || c.toNat == 127

def isSpace (c : Char) : Bool := c = ' ' || c = '\t'

/-- A line end, which may be a return and a line feed. -/
def lineEnd? : List Char → Option (List Char)
  | '\n' :: rest => some rest
  | '\r' :: '\n' :: rest => some rest
  | _ => none

def codePoint? (count : Nat) (cs : List Char) : Option (Char × List Char) := do
  let digits := cs.take count
  if digits.length < count then none
  let n ← digits.foldlM (fun acc c => (Text.hexValue? c).map (acc * 16 + ·)) 0
  if n.isValidChar then some (Char.ofNat n, cs.drop count) else none

/-- What a backslash and the characters after it stand for. -/
def escape? : List Char → Option (Char × List Char)
  | 'b' :: rest => some (Char.ofNat 8, rest)
  | 'e' :: rest => some (Char.ofNat 27, rest)
  | 't' :: rest => some ('\t', rest)
  | 'n' :: rest => some ('\n', rest)
  | 'f' :: rest => some (Char.ofNat 12, rest)
  | 'r' :: rest => some ('\r', rest)
  | '"' :: rest => some ('"', rest)
  | '\\' :: rest => some ('\\', rest)
  | 'x' :: rest => codePoint? 2 rest
  | 'u' :: rest => codePoint? 4 rest
  | 'U' :: rest => codePoint? 8 rest
  | _ => none

/-- The rest of a string on one line; only between double quotes does a backslash escape. -/
def shortString? (quote : Char) : Nat → List Char → List Char → Option (String × List Char)
  | 0, _, _ => none
  | fuel + 1, acc, cs =>
    match cs with
    | [] => none
    | c :: rest =>
      if c = quote then some (String.ofList acc.reverse, rest)
      else if c = '\\' ∧ quote = '"' then
        match escape? rest with
        | some (d, rest) => shortString? quote fuel (d :: acc) rest
        | none => none
      else if isControl c then none
      else shortString? quote fuel (c :: acc) rest

/-- A backslash at the end of a line takes away the line end and all blanks after it. -/
def continued? (cs : List Char) : Option (List Char) :=
  match lineEnd? (cs.dropWhile isSpace) with
  | some rest => some (rest.dropWhile fun c => isSpace c || c = '\n' || c = '\r')
  | none => none

/-- The rest of a string over several lines, which three quotes end. One or two quotes more belong to
the string. -/
def longString? (quote : Char) : Nat → List Char → List Char → Option (String × List Char)
  | 0, _, _ => none
  | fuel + 1, acc, cs =>
    let quotes := (cs.takeWhile (· = quote)).length
    if 3 ≤ quotes then
      let inside := min (quotes - 3) 2
      some (String.ofList (List.replicate inside quote ++ acc).reverse, cs.drop (3 + inside))
    else
      match cs with
      | [] => none
      | '\r' :: '\n' :: rest => longString? quote fuel ('\n' :: '\r' :: acc) rest
      | '\n' :: rest => longString? quote fuel ('\n' :: acc) rest
      | c :: rest =>
        if c = '\\' ∧ quote = '"' then
          match continued? rest with
          | some rest => longString? quote fuel acc rest
          | none =>
            match escape? rest with
            | some (d, rest) => longString? quote fuel (d :: acc) rest
            | none => none
        else if isControl c then none
        else longString? quote fuel (c :: acc) rest

def string? (cs : List Char) : Option (String × List Char) :=
  let fuel := cs.length + 1
  match cs with
  | '"' :: '"' :: '"' :: rest => longString? '"' fuel [] ((lineEnd? rest).getD rest)
  | '\x27' :: '\x27' :: '\x27' :: rest => longString? '\x27' fuel [] ((lineEnd? rest).getD rest)
  | '"' :: rest => shortString? '"' fuel [] rest
  | '\x27' :: rest => shortString? '\x27' fuel [] rest
  | _ => none

/-- Digits with single underscores between them: the digits alone. -/
def digits? (isDigit : Char → Bool) : List Char → Option (List Char)
  | [] => none
  | [c] => if isDigit c then some [c] else none
  | c :: '_' :: rest =>
    if isDigit c then (digits? isDigit rest).map (c :: ·) else none
  | c :: rest => if isDigit c then (digits? isDigit rest).map (c :: ·) else none

def isDecimal (c : Char) : Bool := (Text.digit? c).isSome

def based? (base : Nat) (cs : List Char) : Option Numeral := do
  let digits ← digits? (fun c => (Text.hexValue? c).any (· < base)) cs
  let n := digits.foldl (fun acc c => acc * base + (Text.hexValue? c).getD 0) 0
  if n < Decimal.twoTo 128 then some ⟨false, (Text.decimal n).toList.filterMap Text.digit?, none, none⟩ else none

/-- Decimal digits, without a zero in front of others. -/
def whole? (cs : List Char) : Option (List Nat) := do
  let digits ← digits? isDecimal cs
  if 1 < digits.length ∧ digits.head? = some '0' then none
  some (digits.filterMap Text.digit?)

/-- The power of ten after its letter. -/
def power? (cs : List Char) : Option Int := do
  let (minus, cs) := match cs with
    | '-' :: rest => (true, rest)
    | '+' :: rest => (false, rest)
    | rest => (false, rest)
  let digits ← digits? isDecimal cs
  let n : Nat := (digits.filterMap Text.digit?).foldl (fun acc d => acc * 10 + d) 0
  some (if minus then -(n : Int) else n)

/-- Whether a number is in range: whole ones have 128 bits, others those of a binary number. -/
def inRange (n : Numeral) : Bool :=
  match n.fraction, n.exponent with
  | none, none =>
    let m := n.whole.foldl (fun acc d => acc * 10 + d) 0
    if n.negative then m ≤ Decimal.twoTo 127 else m < Decimal.twoTo 128
  | _, _ => n.real?.isSome

/-- A number in decimal, after its sign. A whole zero has none. -/
def decimal? (negative : Bool) (cs : List Char) : Option Numeral := do
  let (mantissa, power) := Text.cutBefore (fun c => c = 'e' || c = 'E') cs
  let (front, back) := Text.cutBefore (· = '.') mantissa
  let whole ← whole? front
  let fraction ← match back with
    | [] => some none
    | _ :: back => (digits? isDecimal back).map fun ds => some (ds.filterMap Text.digit?)
  let exponent ← match power with
    | [] => some none
    | _ :: power => (power? power).map some
  let isZero := fraction.isNone && exponent.isNone && whole.all (· = 0)
  (some ⟨negative && !isZero, whole, fraction, exponent⟩ : Option Numeral).filter inRange

/-- Two digits no greater than `limit`. -/
def two? (low limit : Nat) (cs : List Char) : Bool :=
  match cs with
  | [a, b] => ((Text.digits? [a, b]).map fun n => low ≤ n && n ≤ limit).getD false
  | _ => false

def parts (mark : Char) (cs : List Char) : List (List Char) := Text.splitOn mark cs

def isDate (cs : List Char) : Bool :=
  match parts '-' cs with
  | [year, month, day] =>
    year.length = 4 && two? 1 12 month &&
      (match Text.digits? year, Text.digits? month with
        | some year, some month => two? 1 (Calendar.Date.monthLength year month) day
        | _, _ => false)
  | _ => false

/-- A time of day; seconds, and then a fraction of them, may be left out. -/
def isClock (cs : List Char) : Bool :=
  let (front, back) := Text.cutBefore (· = '.') cs
  match parts ':' front with
  | [hour, minute] => two? 0 23 hour && two? 0 59 minute && back.isEmpty
  | [hour, minute, second] =>
    two? 0 23 hour && two? 0 59 minute && two? 0 60 second &&
      (match back with
        | [] => true
        | _ :: digits => !digits.isEmpty && digits.all isDecimal)
  | _ => false

/-- A clock with an offset perhaps. -/
def isClockWithOffset (cs : List Char) : Bool :=
  isClock cs ||
    (match cs.reverse with
      | z :: rest => (z = 'Z' || z = 'z') && isClock rest.reverse
      | [] => false) ||
    (match cs.reverse.take 6 with
      | [d, c, ':', b, a, sign] =>
        (sign = '+' || sign = '-') && two? 0 23 [a, b] && two? 0 59 [c, d] &&
          isClock (cs.take (cs.length - 6))
      | _ => false)

/-- A date, a time of day, or both. -/
def isMoment (cs : List Char) : Bool :=
  isDate cs || isClock cs ||
    (isDate (cs.take 10) &&
      (match cs.drop 10 with
        | t :: rest => (t = 'T' || t = 't' || t = ' ') && isClockWithOffset rest
        | [] => false))

def bare? (cs : List Char) : Option Tree :=
  let special : Tree := .numeral ⟨false, [0], some [0], none⟩
  if cs = "true".toList then some (.bool true)
  else if cs = "false".toList then some (.bool false)
  else if isMoment cs then some (.object [])
  else
    match cs with
    | '0' :: 'x' :: rest => (based? 16 rest).map .numeral
    | '0' :: 'o' :: rest => (based? 8 rest).map .numeral
    | '0' :: 'b' :: rest => (based? 2 rest).map .numeral
    | _ =>
      let (negative, body) := match cs with
        | '-' :: rest => (true, rest)
        | '+' :: rest => (false, rest)
        | rest => (false, rest)
      if body = "inf".toList ∨ body = "nan".toList then some special
      else (decimal? negative body).map .numeral

/-- The characters of a word, number or date. A blank between date and time is one of them. -/
def bareToken (cs : List Char) : List Char × List Char :=
  let isToken (c : Char) : Bool :=
    isDecimal c || ('a' ≤ c && c ≤ 'z') || ('A' ≤ c && c ≤ 'Z') || c = '+' || c = '-' || c = '_' ||
      c = '.' || c = ':'
  let token := cs.takeWhile isToken
  let rest := cs.dropWhile isToken
  match rest with
  | ' ' :: c :: more =>
    if isDate token ∧ isDecimal c = true then
      (token ++ ' ' :: (c :: more).takeWhile isToken, (c :: more).dropWhile isToken)
    else (token, rest)
  | _ => (token, rest)

end Rehearsal.Toml
