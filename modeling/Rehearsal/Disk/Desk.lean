import Rehearsal.Disk.Basic
import Rehearsal.Log
import Rehearsal.Run.Outcome
import Rehearsal.Session.Basic

/-! # Desks

All that a run keeps outside the browser: the disk, the sessions and artifacts that are only held in
memory, and a number from which names are made that were not there before.
-/
namespace Rehearsal

structure Desk where
  disk : Disk
  sessions : List (Session.Key × SavedSession)
  /-- Names and sizes of the screenshots held in memory. -/
  screenshots : List (String × Nat)
  results : List RunRecord
  serial : Nat
deriving Repr

namespace Desk

def ofDisk (disk : Disk) : Desk := ⟨disk, [], [], [], 0⟩

/-- A number as 32 hexadecimal digits. -/
def tag (n : Nat) : String :=
  String.ofList ((List.range 32).map fun i => Text.hexDigit (n / Nat.pow 16 (31 - i)))

/-- Puts a session on the shelf, in the place of one with the same key. -/
def shelve (key : Session.Key) (s : SavedSession) :
    List (Session.Key × SavedSession) → List (Session.Key × SavedSession)
  | [] => [(key, s)]
  | (k, t) :: rest => if k = key then (key, s) :: rest else (k, t) :: shelve key s rest

def putSession (d : Desk) (key : Session.Key) (s : SavedSession) : Desk :=
  { d with sessions := shelve key s d.sessions }

def session? (d : Desk) (key : Session.Key) : Option SavedSession := d.sessions.lookup key

end Desk

end Rehearsal
