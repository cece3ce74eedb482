import Rehearsal.Browser.Scripted
import Rehearsal.Json.Lookup

/-! # Documents of scripted browsers

How a browser that follows a script is written down. What the document leaves out is empty.
-/
namespace Rehearsal.Scripted

open Json (Tree Refusal)
open Json.Lookup

def readPhase (t : Tree) : Phase where
  start := nat t "at"
  presence :=
    match text t "state" with
    | "hidden" => .hidden
    | "missing" => .missing
    | _ => .visible
  text := text? t "text"

def readPhases (t : Tree) : List Phase := (items t).map readPhase

/-- The fault of a document by its kind; none for any other kind. -/
def readFault? (t : Tree) : Option BrowserFault :=
  let message := text t "message"
  match text t "kind" with
  | "NoSuchElement" => some (.noSuchElement message)
  | "Script" => some (.script message)
  | "Protocol" => some (.protocol message)
  | "Navigation" => some (.navigation (text t "url") ((text? t "reason").getD message))
  | _ => none

def readEffect (t : Tree) : Except Refusal Effect := do
  let network ← (list t "network").mapM NetworkRequest.read
  return {
    setUrl := text? t "set_url"
    clearCookies := flag t "clear_cookies"
    addCookie :=
      match member t "add_cookie" with
      | .null => none
      | c => some (asValue c)
    network
    setElement :=
      match member t "set_element" with
      | .array [s, phases] => some (asText s, readPhases phases)
      | _ => none
    cancel := flag t "cancel" }

def readEffects (t : Tree) : Except Refusal (List Effect) := (items t).mapM readEffect

def readRedirect (t : Tree) : Redirect := ⟨text t "prefix", text t "to", text? t "unless_cookie"⟩

/-- Reads a scripted browser; its requests, origins and effects may be refused. -/
def read (t : Tree) : Except Refusal Scripted := do
  let network ← (list t "network").mapM NetworkRequest.read
  let origins ← (list t "origins").mapM OriginStorage.read
  let effects ← (table t "effects").mapM fun (key, effects) => do
    return (key, ← readEffects effects)
  return {
    url := text t "url"
    cookies := (list t "cookies").map asValue
    origins
    network
    recording := text? t "recording"
    pictureSize := nat t "screenshot_bytes"
    elements := (table t "elements").map fun (selector, phases) => (selector, readPhases phases)
    delay := (table t "delay").map fun (key, millis) => (key, asNat millis)
    faults := (table t "fail").map fun (key, faults) => (key, (items faults).map readFault?)
    effects
    redirects := (list t "redirects").map readRedirect
    scripts := (table t "scripts").map fun (script, v) => (script, asValue v)
    autoNetwork := flag t "auto_network"
    calls := []
    values := [] }

open Json (Value)

def Entry.toValue (e : Entry) : Value :=
  .array ([.ofNat e.time, .string e.name] ++ (e.about.toList ++ e.arguments).map .string)

def toValue (s : Scripted) (now : Nat) : Value :=
  .object [("calls", .array (s.calls.reverse.map Entry.toValue)),
    ("values", .object (s.values.map fun (selector, v) => (selector, .string v))),
    ("url", .string s.url), ("cookies", .array s.cookies), ("elapsed", .ofNat now)]

end Rehearsal.Scripted
