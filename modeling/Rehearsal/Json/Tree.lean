import Rehearsal.Json.Number
import Rehearsal.Text.Search

/-! # Documents as they are read

The tree of a JSON text. Members stand in the order written, with repetitions; a string whose escapes
form no text (a lone half of a surrogate pair) is kept as broken, since only a reader that wants its
text is bound to refuse it.
-/
namespace Rehearsal.Json

/-- A document, before it is known what it is for. A broken string is `none`. -/
inductive Tree where
  | null
  | bool (b : Bool)
  | numeral (n : Numeral)
  | string (s : Option String)
  | array (items : List Tree)
  | object (members : List (Option String × Tree))
deriving Repr

namespace Tree

instance : Inhabited Tree := ⟨.null⟩

def isSpace (c : Char) : Bool := c = ' ' || c = '\n' || c = '\t' || c = '\r'

def skipSpace (cs : List Char) : List Char := cs.dropWhile isSpace

def hex4? : List Char → Option (Nat × List Char)
  | a :: b :: c :: d :: rest => do
    let a ← Text.hexValue? a
    let b ← Text.hexValue? b
    let c ← Text.hexValue? c
    let d ← Text.hexValue? d
    some (((a * 16 + b) * 16 + c) * 16 + d, rest)
  | _ => none

def simpleEscape? : Char → Option Char
  | '"' => some '"'
  | '\\' => some '\\'
  | '/' => some '/'
  | 'b' => some (Char.ofNat 8)
  | 'f' => some (Char.ofNat 12)
  | 'n' => some '\n'
  | 'r' => some '\r'
  | 't' => some '\t'
  | _ => none

/-- The rest of a string after its opening quote: its characters, least recent first, or none once it
is broken, and what follows the closing quote. A high half must be followed at once by the escape of
a low one. -/
def stringFrom : Nat → Option (List Char) → List Char → Option (Option String × List Char)
  | 0, _, _ => none
  | fuel + 1, acc, cs =>
    match cs with
    | [] => none
    | '"' :: rest => some (acc.map fun read => String.ofList read.reverse, rest)
    | '\\' :: 'u' :: rest =>
      match hex4? rest with
      | none => none
      | some (n, rest) =>
        if 0xDC00 ≤ n ∧ n ≤ 0xDFFF then stringFrom fuel none rest
        else if 0xD800 ≤ n ∧ n ≤ 0xDBFF then
          match rest with
          | '\\' :: 'u' :: after =>
            match hex4? after with
            | none => none
            | some (m, after) =>
              if 0xDC00 ≤ m ∧ m ≤ 0xDFFF then
                let c := Char.ofNat (0x10000 + (n - 0xD800) * 0x400 + (m - 0xDC00))
                stringFrom fuel (acc.map (c :: ·)) after
              else stringFrom fuel none after
          | _ => stringFrom fuel none rest
        else stringFrom fuel (acc.map (Char.ofNat n :: ·)) rest
    | '\\' :: c :: rest =>
      match simpleEscape? c with
      | none => none
      | some c => stringFrom fuel (acc.map (c :: ·)) rest
    | c :: rest =>
      if c.toNat < 32 then none else stringFrom fuel (acc.map (c :: ·)) rest

def digitsOf (cs : List Char) : List Nat × List Char :=
  (((cs.takeWhile fun c => (Text.digit? c).isSome).filterMap Text.digit?),
    cs.dropWhile fun c => (Text.digit? c).isSome)

/-- The sign before a number, and what follows it. -/
def signOf : List Char → Bool × List Char
  | '-' :: rest => (true, rest)
  | cs => (false, cs)

/-- The digits after the point, if there is a point. -/
def fraction? : List Char → Option (Option (List Nat) × List Char)
  | '.' :: rest =>
    let (digits, rest) := digitsOf rest
    if digits.isEmpty then none else some (some digits, rest)
  | cs => some (none, cs)

/-- The sign of a power of ten, which may be a plus. -/
def exponentSignOf : List Char → Bool × List Char
  | '-' :: rest => (true, rest)
  | '+' :: rest => (false, rest)
  | cs => (false, cs)

/-- The number that digits make, most significant first. -/
def ofDigits (digits : List Nat) : Nat := digits.foldl (fun acc d => acc * 10 + d) 0

/-- The power of ten after its mark, if there is a mark. -/
def exponent? : List Char → Option (Option Int × List Char)
  | [] => some (none, [])
  | e :: rest =>
    if e = 'e' ∨ e = 'E' then
      let (minus, rest) := exponentSignOf rest
      let (digits, rest) := digitsOf rest
      if digits.isEmpty then none
      else some (some (if minus then -(ofDigits digits : Int) else ofDigits digits), rest)
    else some (none, e :: rest)

/-- A number: digits without a leading zero, then perhaps a fraction, then perhaps a power of ten. -/
def numeral? (cs : List Char) : Option (Numeral × List Char) :=
  let (negative, cs) := signOf cs
  let (whole, cs) := digitsOf cs
  if whole.isEmpty || (1 < whole.length && whole.head? == some 0) then none
  else
    (fraction? cs).bind fun (fraction, cs) =>
    (exponent? cs).map fun (exponent, cs) => (⟨negative, whole, fraction, exponent⟩, cs)

/-- Where the reader stands: before a value, or inside an array or object after one of its values. -/
inductive Frame where
  | items (read : List Tree)
  | members (read : List (Option String × Tree)) (key : Option String)
deriving Repr

def key? (cs : List Char) : Option (Option String × List Char) :=
  match skipSpace cs with
  | '"' :: rest => do
    let (key, rest) ← stringFrom (rest.length + 1) (some []) rest
    match skipSpace rest with
    | ':' :: rest => some (key, rest)
    | _ => none
  | _ => none

/-- What comes next of the text: a value is still to be read, or one has been. -/
inductive Turn where
  | wanted
  | got (t : Tree)
deriving Repr

/-- Reads a document with the containers that are open, innermost first. Each round consumes a
character or closes a container, so twice the length of the text bounds the rounds. When the text is
no document the result tells how many characters were left. -/
def readFrom : Nat → List Frame → Turn → List Char → Except Nat Tree
  | 0, _, _, cs => .error cs.length
  | fuel + 1, frames, .wanted, cs =>
    let cs := skipSpace cs
    let refuse := Except.error cs.length
    match cs with
    | [] => refuse
    | '[' :: rest =>
      match skipSpace rest with
      | ']' :: after => readFrom fuel frames (.got (.array [])) after
      | _ => readFrom fuel (.items [] :: frames) .wanted rest
    | '{' :: rest =>
      match skipSpace rest with
      | '}' :: after => readFrom fuel frames (.got (.object [])) after
      | _ =>
        match key? rest with
        | none => refuse
        | some (key, after) => readFrom fuel (.members [] key :: frames) .wanted after
    | '"' :: rest =>
      match stringFrom (rest.length + 1) (some []) rest with
      | none => refuse
      | some (s, after) => readFrom fuel frames (.got (.string s)) after
    | 't' :: 'r' :: 'u' :: 'e' :: rest => readFrom fuel frames (.got (.bool true)) rest
    | 'f' :: 'a' :: 'l' :: 's' :: 'e' :: rest => readFrom fuel frames (.got (.bool false)) rest
    | 'n' :: 'u' :: 'l' :: 'l' :: rest => readFrom fuel frames (.got .null) rest
    | cs =>
      match numeral? cs with
      | none => refuse
      | some (n, after) => readFrom fuel frames (.got (.numeral n)) after
  | fuel + 1, frames, .got t, cs =>
    let cs := skipSpace cs
    let refuse := Except.error cs.length
    match frames, cs with
    | [], [] => .ok t
    | [], _ => refuse
    | .items read :: frames, ',' :: rest => readFrom fuel (.items (t :: read) :: frames) .wanted rest
    | .items read :: frames, ']' :: rest =>
      readFrom fuel frames (.got (.array (t :: read).reverse)) rest
    | .members read key :: frames, ',' :: rest =>
      match key? rest with
      | none => refuse
      | some (next, after) => readFrom fuel (.members ((key, t) :: read) next :: frames) .wanted after
    | .members read key :: frames, '}' :: rest =>
      readFrom fuel frames (.got (.object ((key, t) :: read).reverse)) rest
    | _, _ => refuse

/-- Line and column of a place in a text, counted from one. -/
def place (cs : List Char) : Nat × Nat :=
  cs.foldl (fun (line, column) c => if c = '\n' then (line + 1, 0) else (line, column + 1)) (1, 0)

/-- The document of a text, or the line and column where it stops being one. -/
def read (text : String) : Except (Nat × Nat) Tree :=
  let cs := text.toList
  match readFrom (2 * cs.length + 2) [] .wanted cs with
  | .ok t => .ok t
  | .error left => .error (place (cs.take (cs.length - left)))

end Tree

end Rehearsal.Json
