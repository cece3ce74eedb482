import Rehearsal.Disk.Path
import Rehearsal.Scenario.Step

/-! # Operations on elements

What can be done to one element of a page, and the states an element can be in.
-/
namespace Rehearsal

/-- How an element is there at some moment. -/
inductive Presence where
  | missing
  | hidden
  | visible
deriving DecidableEq, Repr

def Presence.word : Presence → String
  | missing => "missing"
  | hidden => "hidden"
  | visible => "visible"

inductive Operation where
  | click
  | doubleClick
  | hover
  | focus
  | scroll
  | check
  | uncheck
  | fill (text : String)
  /-- Types character by character, with a pause of `delay` milliseconds for each. -/
  | type (text : String) (delay : Nat)
  | select (value : String)
  | press (key : String)
  | readText
  | setFiles (path : Disk.Path)
deriving DecidableEq, Repr

namespace Operation

/-- Reading a text and giving files work on an element that is not shown. -/
def needsVisible : Operation → Bool
  | readText | setFiles _ => false
  | _ => true

def word : Operation → String
  | click => "click"
  | doubleClick => "dblclick"
  | hover => "hover"
  | focus => "focus"
  | scroll => "scroll"
  | check => "check"
  | uncheck => "uncheck"
  | fill _ => "fill"
  | type _ _ => "type"
  | select _ => "select"
  | press _ => "press"
  | readText => "read_text"
  | setFiles _ => "set_input_files"

/-- The operation of this name, with a value where it takes one. -/
def ofWord? (name value : String) (delay : Nat) : Option Operation :=
  [click, doubleClick, hover, focus, scroll, check, uncheck, fill value, type value delay,
    select value, press value, readText, setFiles value].find? (·.word == name)

end Operation

def Gesture.operation : Gesture → Operation
  | click => .click
  | doubleClick => .doubleClick
  | hover => .hover
  | focus => .focus
  | scroll => .scroll
  | check => .check
  | uncheck => .uncheck

end Rehearsal
