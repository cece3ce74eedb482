import Rehearsal.Json.Tree
import Rehearsal.Text.Quoted

/-! # Values

A document all of whose strings are text and whose numbers are in range. The members of an object are
sorted by key, each key once, the last value given for it being the one that counts.
-/
namespace Rehearsal.Json

inductive Value where
  | null
  | bool (b : Bool)
  | number (n : Number)
  | string (s : String)
  | array (items : List Value)
  | object (members : List (String × Value))
deriving Repr

namespace Value

instance : Inhabited Value := ⟨.null⟩

/-- Puts a member into sorted members, replacing one of the same key. -/
def insertMember {α : Type} (key : String) (v : α) : List (String × α) → List (String × α)
  | [] => [(key, v)]
  | (k, w) :: rest =>
    if key = k then (key, v) :: rest
    else if key < k then (key, v) :: (k, w) :: rest
    else (k, w) :: insertMember key v rest

def sortedMembers {α : Type} (members : List (String × α)) : List (String × α) :=
  members.foldl (fun acc (k, v) => insertMember k v acc) []

mutual

/-- The value of a document with at most `room` containers inside one another. -/
def ofTree? (room : Nat) : Tree → Option Value
  | .null => some .null
  | .bool b => some (.bool b)
  | .numeral n => n.number?.map .number
  | .string s => s.map .string
  | .array items =>
    match room with
    | 0 => none
    | room + 1 => (itemsOfTrees? room items).map .array
  | .object members =>
    match room with
    | 0 => none
    | room + 1 => (membersOfTrees? room members).map fun ms => .object (sortedMembers ms)

def itemsOfTrees? (room : Nat) : List Tree → Option (List Value)
  | [] => some []
  | t :: ts => do
    let v ← ofTree? room t
    let vs ← itemsOfTrees? room ts
    some (v :: vs)

def membersOfTrees? (room : Nat) : List (Option String × Tree) → Option (List (String × Value))
  | [] => some []
  | (key, t) :: ts => do
    let key ← key
    let v ← ofTree? room t
    let vs ← membersOfTrees? room ts
    some ((key, v) :: vs)

end

def numeralOf (n : Number) : Numeral :=
  match Tree.numeral? n.text.toList with
  | some (numeral, _) => numeral
  | none => ⟨false, [0], none, none⟩

mutual

/-- The document that a value is the value of. -/
def toTree : Value → Tree
  | .null => .null
  | .bool b => .bool b
  | .number n => .numeral (numeralOf n)
  | .string s => .string (some s)
  | .array items => .array (toTrees items)
  | .object members => .object (toMembers members)

def toTrees : List Value → List Tree
  | [] => []
  | v :: vs => toTree v :: toTrees vs

def toMembers : List (String × Value) → List (Option String × Tree)
  | [] => []
  | (k, v) :: rest => (some k, toTree v) :: toMembers rest

end

def get? (v : Value) (key : String) : Option Value :=
  match v with
  | .object members => members.lookup key
  | _ => none

def string? : Value → Option String
  | .string s => some s
  | _ => none

def ofNat (n : Nat) : Value := .number (.natural n)

/-- An optional member of an object under construction: absent when there is none. -/
def member? (key : String) (v : Option Value) : List (String × Value) :=
  match v with
  | some v => [(key, v)]
  | none => []

def strings (ss : List String) : Value := .array (ss.map .string)

mutual

/-- The text of a value on one line, without spaces. -/
def compact : Value → String
  | .null => "null"
  | .bool b => if b then "true" else "false"
  | .number n => n.text
  | .string s => Text.Quoted.quote s
  | .array items => "[" ++ compactItems items ++ "]"
  | .object members => "\x7b" ++ compactMembers members ++ "\x7d"

def compactItems : List Value → String
  | [] => ""
  | [v] => compact v
  | v :: vs => compact v ++ "," ++ compactItems vs

def compactMembers : List (String × Value) → String
  | [] => ""
  | [(k, v)] => Text.Quoted.quote k ++ ":" ++ compact v
  | (k, v) :: rest => Text.Quoted.quote k ++ ":" ++ compact v ++ "," ++ compactMembers rest

end

def indent (depth : Nat) : String := String.ofList (List.replicate (2 * depth) ' ')

mutual

/-- The text of a value with one item to a line, indented by two spaces a level. -/
def pretty (depth : Nat) : Value → String
  | .array [] => "[]"
  | .object [] => "\x7b\x7d"
  | .array (v :: vs) => "[\n" ++ prettyItems (depth + 1) (v :: vs) ++ "\n" ++ indent depth ++ "]"
  | .object (m :: ms) =>
    "\x7b\n" ++ prettyMembers (depth + 1) (m :: ms) ++ "\n" ++ indent depth ++ "\x7d"
  | .null => "null"
  | .bool b => if b then "true" else "false"
  | .number n => n.text
  | .string s => Text.Quoted.quote s

def prettyItems (depth : Nat) : List Value → String
  | [] => ""
  | [v] => indent depth ++ pretty depth v
  | v :: vs => indent depth ++ pretty depth v ++ ",\n" ++ prettyItems depth vs

def prettyMembers (depth : Nat) : List (String × Value) → String
  | [] => ""
  | [(k, v)] => indent depth ++ Text.Quoted.quote k ++ ": " ++ pretty depth v
  | (k, v) :: rest =>
    indent depth ++ Text.Quoted.quote k ++ ": " ++ pretty depth v ++ ",\n" ++
      prettyMembers depth rest

end

end Value

end Rehearsal.Json
