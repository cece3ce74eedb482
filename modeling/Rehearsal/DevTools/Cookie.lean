import Rehearsal.Json.Record

/-! # Cookies

The two forms a cookie has in the protocol: as it is set, and as it is listed. Either is read from a
document field by field and written again; fields that are not of the form are left out.
-/
namespace Rehearsal.DevTools.Cookie

open Json Reading

/-- What a field of a cookie holds. -/
inductive Kind where
  | text
  | truth
  | real
  | whole
  /-- One of some words. It may be read in small letters too. -/
  | oneOf (words : List String)
  /-- The site that a cookie is kept apart for. -/
  | partition
deriving DecidableEq, Repr

structure Field where
  name : String
  kind : Kind
  required : Bool
deriving DecidableEq, Repr

/-- Reads one of some words. A refusal tells the word alone. -/
def readWord (words : List String) : Reading Value := fun t => do
  let s ← Reading.string t
  match words.find? fun w => w == s || Text.smallText w == s with
  | some w => .ok (.string w)
  | none => .error (.unknownWord s)

def readPartition : Reading Value := fun t => do
  let m ← Members.ofTree ["topLevelSite", "hasCrossSiteAncestor"] "struct CookiePartitionKey" t
  let site ← m.required "topLevelSite" string
  let ancestor ← m.required "hasCrossSiteAncestor" bool
  return .object [("hasCrossSiteAncestor", .bool ancestor), ("topLevelSite", .string site)]

def Kind.read : Kind → Reading Value
  | text => fun t => (string t).map .string
  | truth => fun t => (bool t).map .bool
  | real => fun t => (Reading.real t).map fun x => .number (.real x)
  | whole => fun t => (integer t).map fun n =>
    .number (if 0 ≤ n then .natural n.toNat else .below n.natAbs)
  | oneOf words => readWord words
  | partition => readPartition

def Field.read (f : Field) (m : Members) : Except Refusal (List (String × Value)) := do
  if f.required then
    return [(f.name, ← m.required f.name f.kind.read)]
  else
    return Value.member? f.name (← m.optional f.name f.kind.read)

def readFields (m : Members) : List Field → Except Refusal (List (String × Value))
  | [] => .ok []
  | f :: fs => do
    let here ← f.read m
    let rest ← readFields m fs
    return here ++ rest

def read (form : List Field) (expected : String) : Reading Value := fun t => do
  let m ← Members.ofTree (form.map Field.name) expected t
  return .object (Value.sortedMembers (← readFields m form))

def sameSite : Field := ⟨"sameSite", .oneOf ["Strict", "Lax", "None"], false⟩

def priorityWords : List String := ["Low", "Medium", "High"]

def schemeWords : List String := ["Unset", "NonSecure", "Secure"]

/-- A cookie to be set. -/
def settingForm : List Field := [
  ⟨"name", .text, true⟩, ⟨"value", .text, true⟩, ⟨"url", .text, false⟩, ⟨"domain", .text, false⟩,
  ⟨"path", .text, false⟩, ⟨"secure", .truth, false⟩, ⟨"httpOnly", .truth, false⟩, sameSite,
  ⟨"expires", .real, false⟩, ⟨"priority", .oneOf priorityWords, false⟩,
  ⟨"sourceScheme", .oneOf schemeWords, false⟩, ⟨"sourcePort", .whole, false⟩,
  ⟨"partitionKey", .partition, false⟩]

/-- A cookie that is there. -/
def listedForm : List Field := [
  ⟨"name", .text, true⟩, ⟨"value", .text, true⟩, ⟨"domain", .text, true⟩, ⟨"path", .text, true⟩,
  ⟨"expires", .real, true⟩, ⟨"size", .whole, true⟩, ⟨"httpOnly", .truth, true⟩,
  ⟨"secure", .truth, true⟩, ⟨"session", .truth, true⟩, sameSite,
  ⟨"priority", .oneOf priorityWords, true⟩, ⟨"sourceScheme", .oneOf schemeWords, true⟩,
  ⟨"sourcePort", .whole, true⟩, ⟨"partitionKey", .partition, false⟩,
  ⟨"partitionKeyOpaque", .truth, false⟩]

/-- A cookie to be set, from one that was kept: an end in the past means that it has none. -/
def toSet? (v : Value) : Except Refusal Value :=
  let v : Value := match v with
    | .object members => .object (members.filter fun (k, v) => !(k == "expires" && isBelowZero v))
    | v => v
  read settingForm "struct CookieParam" v.toTree
where
  isBelowZero : Value → Bool
    | .number (.below _) => true
    | .number (.real x) => x.isBelowZero
    | _ => false

def text? (cookie : Value) (field : String) : Option String := (cookie.get? field).bind Value.string?

def withUrl (cookie : Value) (url : String) : Value :=
  match cookie with
  | .object members => .object (Value.insertMember "url" (.string url) members)
  | v => v

end Rehearsal.DevTools.Cookie
