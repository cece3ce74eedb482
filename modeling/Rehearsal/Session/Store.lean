import Rehearsal.Disk.Desk
import Rehearsal.Failure

/-! # Stores of sessions

Where sessions are saved under keys. The store on disk keeps one file for each key. A session is
written to a file of another name first, which then takes the place of the old one, so that a reader
never meets half a file.
-/
namespace Rehearsal

/-- A store reads from the desk, and saves to it. A failed saving may leave its traces there. -/
structure SessionStore where
  get : Desk → Session.Key → Except Failure (Option SavedSession)
  put : Desk → Session.Key → SavedSession → Except Failure Unit × Desk × List LogLine

namespace SessionStore

open Disk (Path)

/-- Sessions in memory; any key will do. -/
def memory : SessionStore where
  get d key := .ok (d.session? key)
  put d key s := (.ok (), d.putSession key s, [])

/-- Both parts of the key must be fit for a path. -/
def checkKey (key : Session.Key) : Except Failure Unit :=
  match Session.checkSegment "project_id" key.project with
  | .error fault => .error (.sessionStore fault.message)
  | .ok _ =>
    match Session.checkSegment "state_name" key.state with
    | .error fault => .error (.sessionStore fault.message)
    | .ok _ => .ok ()

def folderOf (root : Path) (key : Session.Key) : Path := Path.join root key.project

def fileOf (root : Path) (key : Session.Key) : Path :=
  (folderOf root key).join (key.state ++ ".json")

/-- The file a session is written to before it takes its place; `tag` makes the name a new one. -/
def draftOf (root : Path) (key : Session.Key) (tag : String) : Path :=
  (folderOf root key).join ("." ++ key.state ++ "." ++ tag ++ ".tmp")

def fault (path : Path) (reason : String) : Failure := .sessionStore (path ++ ": " ++ reason)

def getFile (root : Path) (d : Desk) (key : Session.Key) : Except Failure (Option SavedSession) := do
  checkKey key
  let path := fileOf root key
  match d.disk.readText path with
  | .error .missing => .ok none
  | .error f => .error (fault path f.message)
  | .ok text =>
    match SavedSession.ofText text with
    | .error reason => .error (fault path reason)
    | .ok s => .ok (some s)

def putFile (root : Path) (d : Desk) (key : Session.Key) (s : SavedSession) :
    Except Failure Unit × Desk × List LogLine :=
  match checkKey key with
  | .error e => (.error e, d, [])
  | .ok _ =>
    let folder := folderOf root key
    let path := fileOf root key
    match d.disk.makeFolders folder with
    | .error f => (.error (fault folder f.message), { d with disk := d.disk.leaveFolders folder }, [])
    | .ok disk =>
      let draft := draftOf root key (Desk.tag d.serial)
      let d := { d with disk, serial := d.serial + 1 }
      match disk.write draft (s.toValue.pretty 0).toUTF8.data.toList with
      | .error f => (.error (fault draft f.message), d, [])
      | .ok disk =>
        let d := { d with disk }
        match disk.rename draft path with
        | .error f => (.error (fault path f.message), d, [])
        | .ok disk => (.ok (), { d with disk }, [.debug ("认证状态已写入: " ++ path)])

def files (root : Path) : SessionStore := ⟨getFile root, putFile root⟩

end SessionStore

end Rehearsal
