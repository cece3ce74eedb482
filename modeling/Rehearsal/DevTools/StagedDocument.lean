import Rehearsal.DevTools.Staged
import Rehearsal.DevTools.Traffic
import Rehearsal.Json.Lookup

/-! # Documents of staged pages

How a staged page is written down, and the notices it gives of its requests. What the document leaves
out is empty; the page's address is then the blank page's.
-/
namespace Rehearsal.DevTools.StagedPage

open Json (Tree)
open Json.Lookup

def readBytes (t : Tree) : Disk.Bytes := (items t).map fun b => (asNat b).toUInt8

def readState (t : Tree) : NodeState :=
  match asText t with
  | "hidden" => .hidden
  | "detached" => .detached
  | _ => .present

def readAnswer (t : Tree) : Evaluation :=
  match text? t "exception" with
  | some e => .exception e
  | none => if flag t "undefined" then .undefined else .value (asValue (member t "value"))

def readTexts (t : Tree) : List (String × String) := (pairs t).map fun (k, v) => (k, asText v)

def read (t : Tree) : StagedPage where
  url := (text? t "url").getD "about:blank"
  picture := readBytes (member t "png")
  nodes := Json.Value.sortedMembers ((table t "nodes").map fun (selector, s) => (selector, readState s))
  answers := (list t "evals").map readAnswer
  rules := (list t "rules").map fun r => ⟨texts r "has", readAnswer r⟩
  cookies := (list t "cookies").map asValue
  redirects := readTexts (member t "redirects")
  unreachable := readTexts (member t "unreachable")
  refusals := (table t "refuse").map fun (method, texts) => (method, (items texts).map asText?)
  received := []

/-- A notice as an array of its name, the request and what is told about it. -/
def readNotice? (t : Tree) : Option Notice :=
  match items t with
  | [name, id, url, method] =>
    if asText name = "sent" then some (.sent (asText id) (asText url) (asText method)) else none
  | [name, id, about] =>
    match asText name with
    | "response" => ((Json.Reading.integer about).toOption).map (.response (asText id))
    | "finished" => ((Json.Reading.real about).toOption).map (.finished (asText id))
    | "failed" => some (.failed (asText id) (asText about))
    | _ => none
  | _ => none

end Rehearsal.DevTools.StagedPage
