import Rehearsal.Disk.Path

/-! # Disks

A tree of folders and files, and the file operations on it with the faults they have. A path is
followed from its first name to its last; only its last name may be missing, and only where something
is about to be put there.
-/
namespace Rehearsal

namespace Disk

abbrev Bytes := List UInt8

inductive Node where
  | folder
  | file (content : Bytes)
deriving DecidableEq, Repr

/-- Why a file operation failed. -/
inductive Fault where
  | missing
  | taken
  | notFolder
  | isFolder
  | nameTooLong
  | notText
  | nulName
deriving DecidableEq, Repr

def Fault.message : Fault → String
  | missing => "No such file or directory (os error 2)"
  | taken => "File exists (os error 17)"
  | notFolder => "Not a directory (os error 20)"
  | isFolder => "Is a directory (os error 21)"
  | nameTooLong => "File name too long (os error 36)"
  | notText => "stream did not contain valid UTF-8"
  | nulName => "file name contained an unexpected NUL byte"

end Disk

/-- What stands where, from the root on, and the folder that relative paths start from. -/
structure Disk where
  cwd : List String
  nodes : List (List String × Disk.Node)
deriving DecidableEq, Repr

namespace Disk

/-- The root is always there. -/
def node? (d : Disk) (at_ : List String) : Option Node :=
  if at_ = [] then some .folder else d.nodes.lookup at_

def isFolderAt (d : Disk) (at_ : List String) : Bool := d.node? at_ == some .folder

def put (d : Disk) (at_ : List String) (n : Node) : Disk :=
  { d with nodes := (at_, n) :: d.nodes.filter (·.1 ≠ at_) }

/-- Puts something below a folder, with the folders on the way to it. -/
def putBelow (d : Disk) (folder names : List String) (n : Node) : Disk :=
  let withFolders := (List.range (names.length - 1)).foldl (fun d i =>
    let place := folder ++ names.take (i + 1)
    if (d.node? place).isSome then d else d.put place .folder) d
  withFolders.put (folder ++ names) n

def remove (d : Disk) (at_ : List String) : Disk :=
  { d with nodes := d.nodes.filter (·.1 ≠ at_) }

/-- The longest name, in bytes. -/
def nameLimit : Nat := 255

/-- The longest path, in bytes. -/
def pathLimit : Nat := 4095

/-- Follows `names` from a folder: where the last one is, and what stands there if anything. -/
def follow (d : Disk) (here : List String) : List String → Except Fault (List String × Option Node)
  | [] => .ok (here, d.node? here)
  | name :: rest =>
    if ! d.isFolderAt here then
      .error (if (d.node? here).isSome then .notFolder else .missing)
    else if nameLimit < name.utf8ByteSize then .error .nameTooLong
    else
      let next :=
        if name = "." then here else if name = ".." then here.dropLast else here ++ [name]
      match rest with
      | [] => .ok (next, d.node? next)
      | more :: rest => follow d next (more :: rest)

/-- Where a path leads. One that ends in a slash must not lead to a file. -/
def locate (d : Disk) (p : Path) : Except Fault (List String × Option Node) := do
  if p.toList.any (·.toNat = 0) then .error .nulName
  if p.isEmpty then .error .missing
  if pathLimit < p.utf8ByteSize then .error .nameTooLong
  let found ← follow d (if p.isAbsolute then [] else d.cwd) p.names
  match found.2 with
  | some (.file _) => if p.toList.getLast? = some '/' then .error .notFolder else .ok found
  | _ => .ok found

def readBytes (d : Disk) (p : Path) : Except Fault Bytes := do
  match (← d.locate p).2 with
  | some (.file content) => .ok content
  | some .folder => .error .isFolder
  | none => .error .missing

/-- The content of a file, which must be text. -/
def readText (d : Disk) (p : Path) : Except Fault String := do
  match String.fromUTF8? ⟨(← d.readBytes p).toArray⟩ with
  | some text => .ok text
  | none => .error .notText

def has (d : Disk) (p : Path) : Bool :=
  match d.locate p with
  | .ok (_, some _) => true
  | _ => false

def isFolder? (d : Disk) (p : Path) : Bool :=
  match d.locate p with
  | .ok (_, some .folder) => true
  | _ => false

/-- Writes a file, replacing what was in it. -/
def write (d : Disk) (p : Path) (content : Bytes) : Except Fault Disk := do
  let (at_, found) ← d.locate p
  match found with
  | some .folder => .error .isFolder
  | some (.file _) => .ok (d.put at_ (.file content))
  | none => if p.toList.getLast? = some '/' then .error .isFolder else .ok (d.put at_ (.file content))

def makeFolder (d : Disk) (p : Path) : Except Fault Disk := do
  let (at_, found) ← d.locate p
  match found with
  | some _ => .error .taken
  | none => .ok (d.put at_ .folder)

/-- Makes a folder with the folders above it, `depth` of them at most. A folder that is there
already is no fault. -/
def makeFoldersWithin : Nat → Disk → Path → Except Fault Disk
  | 0, d, p => d.makeFolder p
  | depth + 1, d, p =>
    if p.isEmpty then .ok d
    else
      match d.makeFolder p with
      | .ok d => .ok d
      | .error .missing =>
        match p.parent? with
        | none => .error .missing
        | some parent =>
          match makeFoldersWithin depth d parent with
          | .error fault => .error fault
          | .ok d =>
            match d.makeFolder p with
            | .ok d => .ok d
            | .error fault => if d.isFolder? p then .ok d else .error fault
      | .error fault => if d.isFolder? p then .ok d else .error fault

def makeFolders (d : Disk) (p : Path) : Except Fault Disk :=
  makeFoldersWithin (p.names.length + 1) d p

/-- The disk after an attempt to make folders, `depth` of them at most. Those that were made before a
fault are left there. -/
def leaveFoldersWithin : Nat → Disk → Path → Disk
  | 0, d, p => (d.makeFolder p).toOption.getD d
  | depth + 1, d, p =>
    if p.isEmpty then d
    else
      match d.makeFolder p with
      | .ok d => d
      | .error .missing =>
        match p.parent? with
        | none => d
        | some parent =>
          match makeFoldersWithin depth d parent with
          | .error _ => leaveFoldersWithin depth d parent
          | .ok d => (d.makeFolder p).toOption.getD d
      | .error _ => d

def leaveFolders (d : Disk) (p : Path) : Disk :=
  leaveFoldersWithin (p.names.length + 1) d p

/-- Moves a file onto a place where no folder stands. -/
def rename (d : Disk) (source target : Path) : Except Fault Disk := do
  let (from_, moved) ← d.locate source
  let (onto, found) ← d.locate target
  match moved, found with
  | none, _ => .error .missing
  | some (.file _), some .folder => .error .isFolder
  | some .folder, _ => .error .notFolder
  | some (.file content), _ => .ok ((d.remove from_).put onto (.file content))

def insertSorted (s : String) : List String → List String
  | [] => [s]
  | t :: rest => if s < t then s :: t :: rest else t :: insertSorted s rest

def sortStrings (ss : List String) : List String := ss.foldr insertSorted []

/-- The names in a folder, sorted. -/
def list (d : Disk) (p : Path) : Except Fault (List String) := do
  match ← d.locate p with
  | (at_, some .folder) =>
    .ok (sortStrings (d.nodes.filterMap fun (place, _) =>
      if place.dropLast = at_ ∧ place ≠ [] then place.getLast? else none))
  | (_, some (.file _)) => .error .notFolder
  | (_, none) => .error .missing

def absolute (d : Disk) (p : Path) : Path :=
  if p.isAbsolute then p else Path.join ("/" ++ Text.joinWith "/" d.cwd) p

end Disk

end Rehearsal
