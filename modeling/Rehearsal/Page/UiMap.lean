import Rehearsal.Json.Record

/-! # Maps of a user interface

Names for the elements of a page, each with the selectors to try for it, the best first. Maps are kept
by name; one added later under the same name takes the place of the earlier.
-/
namespace Rehearsal

structure Locator where
  primary : String
  fallbacks : List String
  description : Option String
deriving DecidableEq, Repr

def Locator.candidates (l : Locator) : List String := l.primary :: l.fallbacks

structure UiMap where
  id : Option String
  name : String
  projectId : Option String
  elements : List (String × Locator)
deriving DecidableEq, Repr

namespace Locator

open Json Reading in
def read : Reading Locator := fun t => do
  let m ← Members.ofTree ["primary", "fallbacks", "description"] "struct ElementLocator" t
  return {
    primary := ← m.required "primary" string
    fallbacks := ← m.orElse "fallbacks" [] (list string)
    description := ← m.optional "description" string }

open Json in
def toValue (l : Locator) : Value :=
  .object ([("primary", .string l.primary), ("fallbacks", .strings l.fallbacks)] ++
    Value.member? "description" (l.description.map .string))

end Locator

namespace UiMap

open Json Reading in
def read : Reading UiMap := fun t => do
  let m ← Members.ofTree ["id", "name", "project_id", "elements"] "struct UiMap" t
  return {
    id := ← m.optional "id" string
    name := ← m.required "name" string
    projectId := ← m.optional "project_id" string
    elements := ← m.orElse "elements" [] (table Locator.read) }

open Json in
def toValue (m : UiMap) : Value :=
  .object [("id", (m.id.map .string).getD .null), ("name", .string m.name),
    ("project_id", (m.projectId.map .string).getD .null),
    ("elements", .object (m.elements.map fun (name, l) => (name, l.toValue)))]

def element? (m : UiMap) (name : String) : Option Locator := m.elements.lookup name

/-- A map that names a project is seen by this project alone; without a project all maps are seen. -/
def isVisible (m : UiMap) (project : Option String) : Bool :=
  match m.projectId, project with
  | some owner, some wanted => owner == wanted
  | _, _ => true

end UiMap

/-- Maps in the order of the first appearance of their names. -/
structure UiMapSet where
  maps : List UiMap
deriving DecidableEq, Repr

namespace UiMapSet

def empty : UiMapSet := ⟨[]⟩

def insertIn (m : UiMap) : List UiMap → List UiMap
  | [] => [m]
  | n :: rest => if n.name = m.name then m :: rest else n :: insertIn m rest

def insert (s : UiMapSet) (m : UiMap) : UiMapSet := ⟨insertIn m s.maps⟩

def ofList (maps : List UiMap) : UiMapSet := maps.foldl insert empty

def get? (s : UiMapSet) (name : String) : Option UiMap := s.maps.find? (·.name == name)

def findById? (s : UiMapSet) (id : String) : Option UiMap := s.maps.find? (·.id == some id)

def size (s : UiMapSet) : Nat := s.maps.length

end UiMapSet

end Rehearsal
