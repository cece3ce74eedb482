import Rehearsal.Json.Value

/-! # Records of a document

How a record of named fields is taken from a document. It stands there as an object, whose unknown
members are not looked at, or as an array of its fields in their order. A field that may be absent is
absent from an object when its key is, and from an array when the array ends before it.
-/
namespace Rehearsal.Json

/-- Why a document is not of the shape asked for. -/
inductive Refusal where
  | missing (field : String)
  | repeated (field : String)
  | wrongType (found expected : String)
  | wrongValue (found expected : String)
  | wrongLength (length : Nat) (expected : String)
  | unknownWord (word : String)
  | tooDeep
deriving DecidableEq, Repr

def Refusal.message : Refusal → String
  | missing field => "missing field \x60" ++ field ++ "\x60"
  | repeated field => "duplicate field \x60" ++ field ++ "\x60"
  | wrongType found expected => "invalid type: " ++ found ++ ", expected " ++ expected
  | wrongValue found expected => "invalid value: " ++ found ++ ", expected " ++ expected
  | wrongLength length expected =>
    "invalid length " ++ Text.decimal length ++ ", expected " ++ expected
  | unknownWord word => word
  | tooDeep => "recursion limit exceeded"

/-- Takes something from a document. -/
abbrev Reading (α : Type) := Tree → Except Refusal α

namespace Tree

/-- What a document is, for a refusal. -/
def kindText : Tree → String
  | null => "null"
  | bool _ => "boolean"
  | numeral _ => "number"
  | string (some s) => "string " ++ Text.Quoted.quote s
  | string none => "string"
  | array _ => "sequence"
  | object _ => "map"

end Tree

namespace Reading

def fail {α : Type} (expected : String) : Reading α := fun t =>
  .error (.wrongType t.kindText expected)

def string : Reading String
  | .string (some s) => .ok s
  | t => fail "a string" t

def bool : Reading Bool
  | .bool b => .ok b
  | t => fail "a boolean" t

/-- A natural number of at most `limit`. -/
def natural (limit : Nat) : Reading Nat
  | .numeral n =>
    match n.number? with
    | some (.natural n) => if n ≤ limit then .ok n else .error (.wrongValue "integer" "a natural number")
    | some (.below _) => .error (.wrongValue "integer" "a natural number")
    | _ => .error (.wrongType "floating point" "a natural number")
  | t => fail "a natural number" t

/-- A whole number of 64 bits with sign. -/
def integer : Reading Int
  | .numeral n =>
    match n.number? with
    | some (.natural n) => if n < Decimal.twoTo 63 then .ok n else .error (.wrongValue "integer" "i64")
    | some (.below n) => .ok (-(n : Int))
    | _ => .error (.wrongType "floating point" "i64")
  | t => fail "i64" t

def number : Reading Number
  | .numeral n =>
    match n.number? with
    | some n => .ok n
    | none => .error (.wrongValue "number" "a number in range")
  | t => fail "a number" t

def real : Reading Decimal.Binary64
  | .numeral n =>
    match n.real? with
    | some x => .ok x
    | none => .error (.wrongValue "number" "a number in range")
  | t => fail "f64" t

/-- Any value, with at most `room` containers inside one another. -/
def value (room : Nat) : Reading Value := fun t =>
  match Value.ofTree? room t with
  | some v => .ok v
  | none => .error .tooDeep

/-- `none` for null. -/
def orNull {α : Type} (read : Reading α) : Reading (Option α)
  | .null => .ok none
  | t => (read t).map some

def list {α : Type} (read : Reading α) : Reading (List α)
  | .array items => items.mapM read
  | t => fail "a sequence" t

/-- An object as a table; of a key given twice the last value counts. -/
def table {α : Type} (read : Reading α) : Reading (List (String × α))
  | .object members => do
    let read ← members.mapM fun (key, t) =>
      match key with
      | some key => (read t).map fun v => (key, v)
      | none => .error (.wrongType "broken string" "a key")
    .ok (Value.sortedMembers read)
  | t => fail "a map" t

/-- One of some words: the word as a string, or as the only key of an object holding null. -/
def word {α : Type} (ofWord : String → Option α) (expected : String) : Reading α
  | .string (some s) =>
    match ofWord s with
    | some a => .ok a
    | none => .error (.wrongValue s expected)
  | .object [(some s, .null)] =>
    match ofWord s with
    | some a => .ok a
    | none => .error (.wrongValue s expected)
  | t => fail expected t

end Reading

/-- The fields that a document gives for a record. -/
structure Members where
  /-- Given as an array. -/
  positional : Bool
  given : List (String × Tree)
deriving Repr

namespace Members

/-- Collects the known members of an object; a known key may stand there only once. -/
def ofObject (fields : List String) :
    List (Option String × Tree) → Except Refusal (List (String × Tree))
  | [] => .ok []
  | (none, _) :: _ => .error (.wrongType "broken string" "a key")
  | (some key, t) :: rest => do
    let given ← ofObject fields rest
    if ! fields.contains key then .ok given
    else if (given.lookup key).isSome then .error (.repeated key)
    else .ok ((key, t) :: given)

/-- The members given for a record with these fields, named `expected` when refused. -/
def ofTree (fields : List String) (expected : String) : Reading Members
  | .object members => (ofObject fields members).map fun given => ⟨false, given⟩
  | .array items =>
    if fields.length < items.length then .error (.wrongLength items.length expected)
    else .ok ⟨true, fields.zip items⟩
  | t => Reading.fail expected t

def required {α : Type} (m : Members) (field : String) (read : Reading α) : Except Refusal α :=
  match m.given.lookup field with
  | some t => read t
  | none => .error (.missing field)

/-- A field with a value of its own for when it is absent. -/
def orElse {α : Type} (m : Members) (field : String) (absent : α) (read : Reading α) :
    Except Refusal α :=
  match m.given.lookup field with
  | some t => read t
  | none => .ok absent

def optional {α : Type} (m : Members) (field : String) (read : Reading α) :
    Except Refusal (Option α) :=
  m.orElse field none (Reading.orNull read)

/-- A field that may be null, or absent from an object, but that an array must reach. -/
def nullable {α : Type} (m : Members) (field : String) (read : Reading α) :
    Except Refusal (Option α) :=
  match m.given.lookup field with
  | some t => Reading.orNull read t
  | none => if m.positional then .error (.missing field) else .ok none

end Members

/-- The containers that may stand inside one another in a text. -/
def textRoom : Nat := 127

/-- Takes something from a text. A text that is no document is refused where it stops being one, a
document of another shape at its end. -/
def readText {α : Type} (read : Reading α) (text : String) : Except String α :=
  let located (message : String) (place : Nat × Nat) :=
    message ++ " at line " ++ Text.decimal place.1 ++ " column " ++ Text.decimal place.2
  match Tree.read text with
  | .error place => .error (located "no JSON" place)
  | .ok t =>
    match read t with
    | .ok a => .ok a
    | .error refusal => .error (located refusal.message (Tree.place text.toList))

end Rehearsal.Json
