import Rehearsal.Browser.Operation

/-! # Tasks

A step made ready: its slots filled in, its targets turned into selectors, its addresses and paths
completed, its time limit fixed.
-/
namespace Rehearsal

open Disk (Path)

/-- The rule of a login with its texts filled in. Without candidates only the address counts. -/
structure LoginTask where
  checkUrl : String
  loginScenario : String
  stateName : String
  loggedIn : Option (List String)
  loginUrlPattern : String
deriving DecidableEq, Repr

inductive Deed where
  | navigate (url : String)
  | element (candidates : List String) (operation : Operation)
  | waitVisible (candidates : List String)
  | assertText (candidates : List String) (expected : String)
  | extract (candidates : List String) (saveAs : String)
  | sleep (millis : Nat)
  | script (text : String)
  | screenshot
  | upload (candidates : List String) (path : Path)
  | pasteImage (candidates : List String) (path : Path)
  | runScenario (id : String)
  | saveSession (stateName : String)
  | loadSession (stateName : String)
  | ensureLogin (login : LoginTask)
deriving DecidableEq, Repr

structure Task where
  action : Action
  timeout : Nat
  deed : Deed
  unset : List String
deriving DecidableEq, Repr

/-- A task that keeps its own time is not put under a limit as a whole. -/
def Task.keepsOwnTime (t : Task) : Bool :=
  match t.deed with
  | .sleep _ | .runScenario _ | .ensureLogin _ => true
  | _ => false

end Rehearsal
