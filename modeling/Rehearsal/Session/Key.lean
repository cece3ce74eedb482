import Rehearsal.Text.Blank
import Rehearsal.Text.Search

/-! # Keys of saved sessions

A saved session is found under a project and a name. Either becomes one component of a path, so it
may not be blank, hold a separator of paths, or be one of the two names with a meaning of their own.
-/
namespace Rehearsal.Session

structure Key where
  project : String
  state : String
deriving DecidableEq, Repr

/-- As shown to people. -/
def Key.text (k : Key) : String := k.project ++ "/" ++ k.state

/-- A value that cannot be a component of a path, and the field it was given for. -/
structure SegmentFault where
  field : String
  value : String
deriving DecidableEq, Repr

def SegmentFault.message (f : SegmentFault) : String := "非法的 " ++ f.field ++ ": '" ++ f.value ++ "'"

def isSegment (value : String) : Bool :=
  !Text.allBlank value && !value.toList.any (fun c => c = '/' || c = '\\') && value != ".." &&
    value != "."

def checkSegment (field value : String) : Except SegmentFault Unit :=
  if isSegment value then .ok () else .error ⟨field, value⟩

end Rehearsal.Session
