import Rehearsal.Disk.Desk
import Rehearsal.Failure

/-! # Resources

A file may be named by what it is for: `resource:id` stands for a file that the project's list of
resources gives for `id`.
-/
namespace Rehearsal

open Disk (Path)

/-- Finds the file of a resource of a project. -/
structure ResourceResolver where
  resolve : Desk → (project id : String) → Except Failure Path

namespace ResourceResolver

def refStart : String := "resource:"

/-- The identifier in a reference, blanks around it aside; a blank one is none. -/
def reference? (path : String) : Option String :=
  match Text.afterStart? refStart.toList path.toList with
  | some rest =>
    let id := Text.trimChars rest
    if id.isEmpty then none else some (String.ofList id)
  | none => none

def fault (id reason : String) : Failure := .resource (refStart ++ id) reason

/-- A line of a project's list of resources. -/
structure Entry where
  id : String
  filename : String
deriving DecidableEq, Repr

open Json Reading in
def Entry.read : Reading Entry := fun t => do
  let m ← Members.ofTree ["id", "filename"] "struct ResourceEntry" t
  return { id := ← m.required "id" string, filename := ← m.required "filename" string }

def resolveIn (root : Path) (d : Desk) (project id : String) : Except Failure Path :=
  let folder := root.join project
  let list := folder.join "metadata.json"
  match d.disk.readText list with
  | .error f => .error (fault id (list ++ ": " ++ f.message))
  | .ok text =>
    match Json.readText (Json.Reading.list Entry.read) text with
    | .error reason => .error (fault id (list ++ ": " ++ reason))
    | .ok entries =>
      match entries.find? (·.id == id) with
      | none => .error (fault id "清单中没有该资源")
      | some entry =>
        let path := folder.join entry.filename
        if d.disk.has path then .ok path else .error (fault id ("文件不存在: " ++ path))

/-- Resources listed in `metadata.json` in the project's folder. -/
def folder (root : Path) : ResourceResolver := ⟨resolveIn root⟩

/-- The same resources for every project. -/
def fixed (entries : List (String × Path)) : ResourceResolver where
  resolve _ _ id :=
    match entries.lookup id with
    | some path => .ok path
    | none => .error (fault id "未登记的资源")

end ResourceResolver

end Rehearsal
