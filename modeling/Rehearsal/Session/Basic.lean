import Rehearsal.Json.Record
import Rehearsal.Session.Key

/-! # Saved sessions

What a browser keeps of a login: its cookies, whose form is the browser's own affair, and the web
storage of each origin.
-/
namespace Rehearsal

structure StorageEntry where
  name : String
  value : String
deriving DecidableEq, Repr

structure OriginStorage where
  origin : String
  localEntries : List StorageEntry
  sessionEntries : List StorageEntry
deriving DecidableEq, Repr

structure SavedSession where
  cookies : List Json.Value
  origins : List OriginStorage
deriving Repr

namespace StorageEntry

open Json Reading in
def read : Reading StorageEntry := fun t => do
  let m ← Members.ofTree ["name", "value"] "struct StorageEntry" t
  return { name := ← m.required "name" string, value := ← m.required "value" string }

open Json in
def toValue (e : StorageEntry) : Value :=
  .object [("name", .string e.name), ("value", .string e.value)]

end StorageEntry

namespace OriginStorage

open Json Reading in
def read : Reading OriginStorage := fun t => do
  let m ← Members.ofTree ["origin", "localStorage", "sessionStorage"] "struct OriginStorage" t
  return {
    origin := ← m.required "origin" string
    localEntries := ← m.orElse "localStorage" [] (list StorageEntry.read)
    sessionEntries := ← m.orElse "sessionStorage" [] (list StorageEntry.read) }

open Json in
/-- Storage of the browser's session is written only when there is some. -/
def toValue (o : OriginStorage) : Value :=
  .object ([("origin", .string o.origin),
    ("localStorage", .array (o.localEntries.map StorageEntry.toValue))] ++
    match o.sessionEntries with
    | [] => []
    | e :: es => [("sessionStorage", .array ((e :: es).map StorageEntry.toValue))])

end OriginStorage

namespace SavedSession

def empty : SavedSession := ⟨[], []⟩

open Json Reading in
/-- Reads a session whose cookies have at most `room` containers inside one another. -/
def readWithin (room : Nat) : Reading SavedSession := fun t => do
  let m ← Members.ofTree ["cookies", "origins"] "struct AuthState" t
  return {
    cookies := ← m.orElse "cookies" [] (list (value room))
    origins := ← m.orElse "origins" [] (list OriginStorage.read) }

/-- The session of a text; two containers are open around a cookie. -/
def ofText (text : String) : Except String SavedSession :=
  Json.readText (readWithin (Json.textRoom - 2)) text

open Json in
def toValue (s : SavedSession) : Value :=
  .object [("cookies", .array s.cookies), ("origins", .array (s.origins.map OriginStorage.toValue))]

/-- Nothing worth restoring: no cookie and no lasting storage. -/
def isEmpty (s : SavedSession) : Bool :=
  s.cookies.isEmpty && s.origins.all (·.localEntries.isEmpty)

def origin? (s : SavedSession) (origin : String) : Option OriginStorage :=
  s.origins.find? (·.origin == origin)

end SavedSession

end Rehearsal
