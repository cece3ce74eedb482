import Rehearsal.Browser.Call
import Rehearsal.Browser.Operation
import Rehearsal.Disk.Desk
import Rehearsal.Failure

/-! # Browsers

A browser showing one page, as the calls it answers. Each call tries once and at once; waiting for
something to appear is the business of the caller.
-/
namespace Rehearsal

abbrev Answer (α : Type) := Except BrowserFault α

/-- The calls of a browser with states `σ`. -/
structure Browser (σ : Type) where
  goto : String → Call σ (Answer Unit)
  currentUrl : Call σ (Answer String)
  probe : String → Call σ (Answer Presence)
  /-- Does something to the first element that a selector matches; reading gives its text. -/
  perform : String → Operation → Call σ (Answer (Option String))
  evaluate : String → Call σ (Answer Json.Value)
  /-- A picture of the whole page, or of what is in view. -/
  screenshot : (full : Bool) → Call σ (Answer Disk.Bytes)
  snapshot : Call σ (Answer SavedSession)
  restore : SavedSession → Call σ (Answer Unit)
  /-- Takes the requests that have ended since they were last taken. -/
  takeRequests : Call σ (List NetworkRequest)
  /-- Ends a recording, if the browser makes one, and tells where it is. -/
  finishRecording : Call σ (Answer (Option String))
  close : Call σ (Answer Unit)

end Rehearsal
