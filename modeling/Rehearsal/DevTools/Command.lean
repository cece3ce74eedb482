import Rehearsal.Browser.Basic

/-! # Commands to a browser

The commands of the DevTools protocol that working a page takes, each with the answer it gets. A
browser may refuse any of them with a text.
-/
namespace Rehearsal.DevTools

inductive MouseEvent where
  | moved
  | pressed
  | released
deriving DecidableEq, Repr

/-- A key goes down with a text or without one, and comes up. -/
inductive KeyEvent where
  | down
  | rawDown
  | up
deriving DecidableEq, Repr

/-- A point of the page, in pixels. -/
structure Point where
  x : Nat
  y : Nat
deriving DecidableEq, Repr

/-- What became of a script: its value, nothing at all, or an exception. -/
inductive Evaluation where
  | value (v : Json.Value)
  | undefined
  | exception (text : String)
deriving Repr

/-- A number that stands for an element of the page. -/
abbrev NodeId := Nat

inductive Command : Type → Type where
  | createTarget (url : String) : Command Unit
  | enableNetwork : Command Unit
  /-- Goes to an address; a text tells why it could not be reached. -/
  | navigate (url : String) : Command (Option String)
  | document : Command NodeId
  /-- The first element of the document that a selector matches. -/
  | querySelector (root : NodeId) (selector : String) : Command (Option NodeId)
  | describe (node : NodeId) : Command Unit
  | resolve (node : NodeId) : Command Unit
  /-- Scrolls until an element is in view; a text tells why it cannot be. -/
  | scrollIntoView (node : NodeId) : Command (Option String)
  | focus (node : NodeId) : Command Unit
  /-- The middle of an element, if it has a place on the page. -/
  | middle (node : NodeId) : Command (Option Point)
  | mouse (event : MouseEvent) (at_ : Point) : Command Unit
  | key (event : KeyEvent) (key : String) : Command Unit
  | setFiles (paths : List Disk.Path) (node : NodeId) : Command Unit
  | activateTarget : Command Unit
  | layoutMetrics : Command Unit
  | overrideMetrics : Command Unit
  | clearMetrics : Command Unit
  /-- Takes a picture, of a clip that holds the whole page or of what is in view. -/
  | capture (clip : Bool) : Command Disk.Bytes
  | getCookies : Command (List Json.Value)
  | deleteCookies (name : String) : Command Unit
  | setCookies (cookies : List Json.Value) : Command Unit
  | evaluate (script : String) : Command Evaluation
  | callFunction (script : String) : Command Evaluation
  | closePage : Command Unit
  | closeBrowser : Command Unit

/-- The name of the protocol's method for a command. -/
def Command.method {α : Type} : Command α → String
  | createTarget _ => "Target.createTarget"
  | enableNetwork => "Network.enable"
  | navigate _ => "Page.navigate"
  | document => "DOM.getDocument"
  | querySelector _ _ => "DOM.querySelector"
  | describe _ => "DOM.describeNode"
  | resolve _ => "DOM.resolveNode"
  | scrollIntoView _ | focus _ | callFunction _ => "Runtime.callFunctionOn"
  | middle _ => "DOM.getContentQuads"
  | mouse _ _ => "Input.dispatchMouseEvent"
  | key _ _ => "Input.dispatchKeyEvent"
  | setFiles _ _ => "DOM.setFileInputFiles"
  | activateTarget => "Target.activateTarget"
  | layoutMetrics => "Page.getLayoutMetrics"
  | overrideMetrics => "Emulation.setDeviceMetricsOverride"
  | clearMetrics => "Emulation.clearDeviceMetricsOverride"
  | capture _ => "Page.captureScreenshot"
  | getCookies => "Network.getCookies"
  | deleteCookies _ => "Network.deleteCookies"
  | setCookies _ => "Network.setCookies"
  | evaluate _ => "Runtime.evaluate"
  | closePage => "Page.close"
  | closeBrowser => "Browser.close"

/-- A browser at the other end of the protocol: it answers commands or refuses them, and lets one see
the address of the page. -/
structure Endpoint (π : Type) where
  send : {α : Type} → Command α → Call π (Except String α)
  address : Call π String

def refusal (text : String) : String := "Error -32000: " ++ text

/-- An answer whose refusal is a fault of the protocol. -/
def orProtocol {α : Type} : Except String α → Answer α
  | .ok a => .ok a
  | .error text => .error (.protocol text)

end Rehearsal.DevTools
