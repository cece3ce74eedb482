import Rehearsal.DevTools.Command
import Rehearsal.DevTools.Cookie

/-! # Staged pages

A page at the other end of the protocol whose answers are written down beforehand, for trying out what
a tab does with them. It keeps a list of the commands it received.
-/
namespace Rehearsal.DevTools

/-- How an element of a staged page is there. -/
inductive NodeState where
  | present
  | hidden
  | detached
deriving DecidableEq, Repr

/-- The answer to every script in which all these texts occur. -/
structure ScriptRule where
  texts : List String
  answer : Evaluation
deriving Repr

/-- Elements stand in the order of their selectors. Of refusals each command takes the first one
written down for its method. -/
structure StagedPage where
  url : String
  picture : Disk.Bytes
  nodes : List (String × NodeState)
  /-- Answers for the first scripts, before the rules. -/
  answers : List Evaluation
  rules : List ScriptRule
  cookies : List Json.Value
  redirects : List (String × String)
  unreachable : List (String × String)
  refusals : List (String × List (Option String))
  received : List Json.Value

namespace StagedPage

open Json (Value)

def firstNode : NodeId := 100

def state? (p : StagedPage) (node : NodeId) : Option NodeState :=
  if node < firstNode then none else (p.nodes[node - firstNode]?).map (·.2)

def node? (p : StagedPage) (selector : String) : Option NodeId :=
  (p.nodes.findIdx? (·.1 == selector)).map (firstNode + ·)

def place : Point := ⟨60, 40⟩

def mouseWord : MouseEvent → String
  | .moved => "mouseMoved"
  | .pressed => "mousePressed"
  | .released => "mouseReleased"

def keyWord : KeyEvent → String
  | .down => "keyDown"
  | .rawDown => "rawKeyDown"
  | .up => "keyUp"

/-- A coordinate, which is written as a number with a fraction. -/
def coordinate (n : Nat) : Value :=
  match Decimal.Binary64.ofRatio? false n 1 with
  | some x => .number (.real x)
  | none => .ofNat n

def shown {α : Type} (c : Command α) : Option Value :=
  let told (args : List Value) : Option Value := some (.array (.string c.method :: args))
  match c with
  | .createTarget url | .navigate url => told [.string url]
  | .enableNetwork | .closePage | .closeBrowser => told []
  | .querySelector _ selector => told [.string selector]
  | .scrollIntoView node => some (.strings ["scrollIntoView", Text.decimal node])
  | .focus node => some (.strings ["focus", Text.decimal node])
  | .mouse event at_ => told [.string (mouseWord event), coordinate at_.x, coordinate at_.y]
  | .key event key => told [.string (keyWord event), .string key]
  | .setFiles paths node => told [.strings paths, .ofNat node]
  | .capture clip => told [.string "png", .bool clip]
  | .setCookies cookies => told [.array cookies]
  | .evaluate script | .callFunction script => told [.string script]
  | _ => none

def receive {α : Type} (p : StagedPage) (c : Command α) : StagedPage :=
  { p with received := p.received ++ (shown c).toList }

def takeRefusal (method : String) :
    List (String × List (Option String)) → Option String × List (String × List (Option String))
  | [] => (none, [])
  | (m, texts) :: rest =>
    if m = method then
      match texts with
      | [] => (none, (m, []) :: rest)
      | text :: texts => (text, (m, texts) :: rest)
    else
      let (text, rest) := takeRefusal method rest
      (text, (m, texts) :: rest)

def script (p : StagedPage) (text : String) : Evaluation × StagedPage :=
  match p.answers with
  | a :: answers => (a, { p with answers })
  | [] =>
    (((p.rules.find? fun r => r.texts.all (Text.contains text)).map ScriptRule.answer).getD
      (.value .null), p)

/-- What every cookie is like unless it says otherwise. -/
def cookieDefaults : List (String × Value) := [
  ("domain", .string "app.test"), ("path", .string "/"), ("expires", .number (.below 1)),
  ("size", .ofNat 0), ("httpOnly", .bool false), ("secure", .bool false), ("session", .bool true),
  ("priority", .string "Medium"), ("sourceScheme", .string "Secure"), ("sourcePort", .ofNat 443)]

def listedCookie (v : Value) : Except String Value :=
  let own : List (String × Value) := match v with
    | .object members => members
    | _ => []
  match Cookie.read Cookie.listedForm "struct Cookie"
      (Value.object (Value.sortedMembers (cookieDefaults ++ own))).toTree with
  | .ok cookie => .ok cookie
  | .error refusal => .error refusal.message

/-- What a command does, and its answer. -/
def answer (p : StagedPage) : {α : Type} → Command α → Except String α × StagedPage
  | _, .navigate url =>
    (.ok (p.unreachable.lookup url), { p with url := (p.redirects.lookup url).getD url })
  | _, .document => (.ok 1, p)
  | _, .querySelector _ selector => (.ok (p.node? selector), p)
  | _, .scrollIntoView node =>
    (.ok (if p.state? node = some .detached then some "Node is detached from document" else none), p)
  | _, .middle node => (.ok (if p.state? node = some .hidden then none else some place), p)
  | _, .capture _ => (.ok p.picture, p)
  | _, .getCookies => (p.cookies.mapM listedCookie, p)
  | _, .evaluate text => (p.script text).map .ok id
  | _, .callFunction text => (p.script text).map .ok id
  | _, .createTarget _ => (.ok (), p)
  | _, .enableNetwork => (.ok (), p)
  | _, .describe _ => (.ok (), p)
  | _, .resolve _ => (.ok (), p)
  | _, .focus _ => (.ok (), p)
  | _, .mouse _ _ => (.ok (), p)
  | _, .key _ _ => (.ok (), p)
  | _, .setFiles _ _ => (.ok (), p)
  | _, .activateTarget => (.ok (), p)
  | _, .layoutMetrics => (.ok (), p)
  | _, .overrideMetrics => (.ok (), p)
  | _, .clearMetrics => (.ok (), p)
  | _, .deleteCookies _ => (.ok (), p)
  | _, .setCookies _ => (.ok (), p)
  | _, .closePage => (.ok (), p)
  | _, .closeBrowser => (.ok (), p)

def send {α : Type} (c : Command α) : Call StagedPage (Except String α) := do
  let p := (← Call.page).receive c
  let (refused, refusals) := takeRefusal c.method p.refusals
  let p := { p with refusals }
  match refused with
  | some text => do
    Call.setPage p
    return .error (refusal text)
  | none => do
    let (a, p) := p.answer c
    Call.setPage p
    return a

def endpoint : Endpoint StagedPage where
  send := send
  address := do return (← Call.page).url

end StagedPage

end Rehearsal.DevTools
