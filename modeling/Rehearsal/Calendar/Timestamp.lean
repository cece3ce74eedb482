import Rehearsal.Text.Blank
import Rehearsal.Text.Digits

/-! # Timestamps

An instant of Coordinated Universal Time to the nanosecond, and its text. The reader is lenient about
blanks, about the letter between date and time and about the form of the offset; the writer has one
form, with as many groups of three decimals as the instant needs.
-/
namespace Rehearsal.Calendar

/-- Seconds since 1970 and nanoseconds. A thousand million nanoseconds or more are a leap second, the
sixty-first of its minute. -/
structure Timestamp where
  second : Int
  nano : Nat
deriving DecidableEq, Repr

structure Date where
  year : Int
  month : Nat
  day : Nat
deriving DecidableEq, Repr

namespace Date

/-- Days from 1970-01-01, in years that begin with March so that a leap day comes last. -/
def days (d : Date) : Int :=
  let y := if d.month ≤ 2 then d.year - 1 else d.year
  let era := y.fdiv 400
  let yearOfEra := y - era * 400
  let monthFromMarch : Int := ((d.month + 9) % 12 : Nat)
  let dayOfYear := (153 * monthFromMarch + 2).fdiv 5 + (d.day : Int) - 1
  let dayOfEra := yearOfEra * 365 + yearOfEra.fdiv 4 - yearOfEra.fdiv 100 + dayOfYear
  era * 146097 + dayOfEra - 719468

def ofDays (days : Int) : Date :=
  let z := days + 719468
  let era := z.fdiv 146097
  let dayOfEra := z - era * 146097
  let yearOfEra := (dayOfEra - dayOfEra.fdiv 1460 + dayOfEra.fdiv 36524 - dayOfEra.fdiv 146096).fdiv 365
  let dayOfYear := dayOfEra - (365 * yearOfEra + yearOfEra.fdiv 4 - yearOfEra.fdiv 100)
  let monthFromMarch := (5 * dayOfYear + 2).fdiv 153
  let day := dayOfYear - (153 * monthFromMarch + 2).fdiv 5 + 1
  let month := if monthFromMarch < 10 then monthFromMarch + 3 else monthFromMarch - 9
  let year := yearOfEra + era * 400 + (if month ≤ 2 then 1 else 0)
  ⟨year, month.toNat, day.toNat⟩

def isLeap (year : Int) : Bool :=
  year.fmod 4 == 0 && (year.fmod 100 != 0 || year.fmod 400 == 0)

def monthLength (year : Int) (month : Nat) : Nat :=
  if month = 2 then (if isLeap year then 29 else 28)
  else if month = 4 ∨ month = 6 ∨ month = 9 ∨ month = 11 then 30
  else 31

/-- A date of the calendar, in the years that are represented. -/
def isValid (d : Date) : Bool :=
  -262143 ≤ d.year && d.year ≤ 262142 && 1 ≤ d.month && d.month ≤ 12 && 1 ≤ d.day &&
    d.day ≤ monthLength d.year d.month

end Date

namespace Timestamp

def skipBlanks (cs : List Char) : List Char := cs.dropWhile Text.isBlank

/-- At most `width` digits, of which there must be one. -/
def number? (width : Nat) (cs : List Char) : Option (Nat × List Char) :=
  let digits := (cs.take width).takeWhile fun c => (Text.digit? c).isSome
  (Text.digits? digits).map fun n => (n, cs.drop digits.length)

def field? (cs : List Char) : Option (Nat × List Char) := number? 2 (skipBlanks cs)

def mark? (c : Char) (cs : List Char) : Option (List Char) :=
  match skipBlanks cs with
  | d :: rest => if c = d then some rest else none
  | [] => none

/-- A year has four digits at most, or a sign and any number of them. -/
def year? (cs : List Char) : Option (Int × List Char) :=
  match skipBlanks cs with
  | '-' :: rest => (number? rest.length rest).map fun (n, rest) => (-(n : Int), rest)
  | '+' :: rest => (number? rest.length rest).map fun (n, rest) => ((n : Int), rest)
  | cs => (number? 4 cs).map fun (n, rest) => ((n : Int), rest)

/-- The nanoseconds after a point; digits past the ninth are skipped. -/
def nanos? : List Char → Option (Nat × List Char)
  | '.' :: rest =>
    let digits := rest.takeWhile fun c => (Text.digit? c).isSome
    let kept := digits.take 9
    (Text.digits? kept).map fun n => (n * Nat.pow 10 (9 - kept.length), rest.drop digits.length)
  | cs => some (0, cs)

/-- The offset from Universal Time in minutes. -/
def offset? (cs : List Char) : Option (Int × List Char) :=
  match cs with
  | [] => none
  | c :: rest =>
    if c = 'Z' ∨ c = 'z' then some (0, rest)
    else if (cs.take 3).map Char.toUpper = ['U', 'T', 'C'] then some (0, cs.drop 3)
    else if c = '+' ∨ c = '-' ∨ c = '−' then
      match rest with
      | a :: b :: rest => do
        let hours ← Text.digits? [a, b]
        let rest := rest.dropWhile fun c => c = ':' || Text.isBlank c
        match rest with
        | m :: n :: rest => do
          let minutes ← Text.digits? [m, n]
          if 60 ≤ minutes then none
          let total : Int := (hours * 60 + minutes : Nat)
          if 24 * 60 ≤ total then none
          some (if c = '+' then total else -total, rest)
        | _ => none
      | _ => none
    else none

def ofText? (text : String) : Option Timestamp := do
  let (year, cs) ← year? text.toList
  let (month, cs) ← field? (← mark? '-' cs)
  let (day, cs) ← field? (← mark? '-' cs)
  let cs ← match cs with
    | c :: rest => if c = 'T' ∨ c = 't' ∨ c = ' ' then some rest else none
    | [] => none
  let (hour, cs) ← field? cs
  let (minute, cs) ← field? (← mark? ':' cs)
  let (second, cs) ← field? (← mark? ':' cs)
  let (nano, cs) ← nanos? cs
  let (offset, cs) ← offset? (skipBlanks cs)
  if (skipBlanks cs) ≠ [] then none
  let date : Date := ⟨year, month, day⟩
  if ¬ date.isValid ∨ 24 ≤ hour ∨ 60 ≤ minute ∨ 61 ≤ second then none
  let (second, nano) := if second = 60 then (59, nano + 1000000000) else (second, nano)
  some ⟨date.days * 86400 + (hour * 3600 + minute * 60 + second : Nat) - offset * 60, nano⟩

/-- The decimals, in groups of three. -/
def decimals (nano : Nat) : String :=
  if nano = 0 then ""
  else if nano % 1000000 = 0 then "." ++ Text.padded 3 (nano / 1000000)
  else if nano % 1000 = 0 then "." ++ Text.padded 6 (nano / 1000)
  else "." ++ Text.padded 9 nano

/-- Years outside four digits are written with a sign. -/
def yearText (year : Int) : String :=
  if 0 ≤ year ∧ year ≤ 9999 then Text.padded 4 year.toNat
  else (if year < 0 then "-" else "+") ++ Text.padded 4 year.natAbs

/-- What calendar and clock show at an instant. A leap second is the sixty-first of its minute. -/
structure Face where
  date : Date
  hour : Nat
  minute : Nat
  second : Nat
  nano : Nat
deriving DecidableEq, Repr

def face (t : Timestamp) : Face :=
  let days := t.second.fdiv 86400
  let rest := (t.second - days * 86400).toNat
  let (extra, nano) := if 1000000000 ≤ t.nano then (1, t.nano - 1000000000) else (0, t.nano)
  ⟨.ofDays days, rest / 3600, rest / 60 % 60, rest % 60 + extra, nano⟩

/-- Year, month and day with a mark between them. -/
def Face.dateText (f : Face) (mark : String) : String :=
  yearText f.date.year ++ mark ++ Text.padded 2 f.date.month ++ mark ++ Text.padded 2 f.date.day

/-- Hour, minute and second with a mark between them. -/
def Face.clockText (f : Face) (mark : String) : String :=
  Text.padded 2 f.hour ++ mark ++ Text.padded 2 f.minute ++ mark ++ Text.padded 2 f.second

def text (t : Timestamp) : String :=
  t.face.dateText "-" ++ "T" ++ t.face.clockText ":" ++ decimals t.face.nano ++ "Z"

/-- An instant as it is shown to people. -/
def shown (t : Timestamp) : String := t.face.dateText "-" ++ " " ++ t.face.clockText ":"

/-- An instant in the name of a folder. -/
def stamp (t : Timestamp) : String := t.face.dateText "" ++ "_" ++ t.face.clockText ""

end Timestamp

end Rehearsal.Calendar
