import Rehearsal.Browser.Basic

/-! # Browsers that follow a script

A browser without pages, for trying scenarios out. What its elements look like in the course of time,
how long its calls take, which of them fail and what they bring about is all written down beforehand.
It keeps a log of the calls.
-/
namespace Rehearsal

namespace Scripted

/-- How an element is there from some moment on. -/
structure Phase where
  start : Nat
  presence : Presence
  text : Option String
deriving DecidableEq, Repr

/-- What a call brings about besides its own work. -/
structure Effect where
  setUrl : Option String
  clearCookies : Bool
  addCookie : Option Json.Value
  network : List NetworkRequest
  setElement : Option (String × List Phase)
  cancel : Bool

/-- Where one gets when going to an address with this beginning, unless a cookie is there. -/
structure Redirect where
  start : String
  goal : String
  unlessCookie : Option String
deriving DecidableEq, Repr

/-- A call as it was begun: when, its name, what it concerned and with what. -/
structure Entry where
  time : Nat
  name : String
  about : Option String
  arguments : List String
deriving DecidableEq, Repr

/-- Replaces the value of a key, or adds the key at the end. -/
def update {α : Type} (key : String) (v : α) : List (String × α) → List (String × α)
  | [] => [(key, v)]
  | (k, w) :: rest => if k = key then (key, v) :: rest else (k, w) :: update key v rest

end Scripted

open Scripted in
/-- Delays, faults and effects are found under the name of a call, followed by a space and what the
call concerns, if it concerns something. -/
structure Scripted where
  url : String
  cookies : List Json.Value
  origins : List OriginStorage
  network : List NetworkRequest
  recording : Option String
  pictureSize : Nat
  elements : List (String × List Phase)
  delay : List (String × Nat)
  faults : List (String × List (Option BrowserFault))
  effects : List (String × List Effect)
  redirects : List Redirect
  scripts : List (String × Json.Value)
  /-- Whether going to an address makes a request. -/
  autoNetwork : Bool
  /-- The log, the latest call first. -/
  calls : List Entry
  values : List (String × String)

namespace Scripted

/-- The phase of an element: the last one written down that has begun. -/
def phase? (s : Scripted) (now : Nat) (selector : String) : Option Phase :=
  ((s.elements.lookup selector).getD []).reverse.find? (·.start ≤ now)

def presence (s : Scripted) (now : Nat) (selector : String) : Presence :=
  ((s.phase? now selector).map Phase.presence).getD .missing

def hasCookie (s : Scripted) (name : String) : Bool :=
  s.cookies.any fun c => (c.get? "name").bind Json.Value.string? == some name

def apply (s : Scripted) (e : Effect) : Scripted :=
  { s with
    url := e.setUrl.getD s.url
    cookies := (if e.clearCookies then [] else s.cookies) ++ e.addCookie.toList
    network := s.network ++ e.network
    elements := match e.setElement with
      | some (selector, phases) => update selector phases s.elements
      | none => s.elements }

def key (name : String) (about : Option String) : String :=
  match about with
  | some a => name ++ " " ++ a
  | none => name

def applyAll : List Effect → Call Scripted Unit
  | [] => pure ()
  | e :: rest => do
    Call.modifyPage (·.apply e)
    if e.cancel then Call.cancel (applyAll rest) else applyAll rest

/-- Takes the next fault written down for a call. -/
def nextFault (key : String) : Call Scripted (Option BrowserFault) := do
  let s ← Call.page
  match s.faults.lookup key with
  | some (fault :: rest) =>
    Call.setPage { s with faults := update key rest s.faults }
    return fault
  | _ => return none

/-- A call: it is logged, takes its time, fails if that is written down, does its work and has its
effects. The answer is looked up last. -/
def call {α β : Type} (name : String) (about : Option String) (arguments : List String)
    (work : Call Scripted (Answer α)) (answer : α → Call Scripted β) :
    Call Scripted (Answer β) := do
  let now ← Call.now
  Call.modifyPage fun s => { s with calls := ⟨now, name, about, arguments⟩ :: s.calls }
  let s ← Call.page
  Call.wait ((s.delay.lookup (key name about)).getD 0)
  match ← nextFault (key name about) with
  | some fault => return .error fault
  | none =>
    match ← work with
    | .error fault => return .error fault
    | .ok a =>
      let s ← Call.page
      applyAll ((s.effects.lookup (key name about)).getD [])
      return .ok (← answer a)

def visit (s : Scripted) (url : String) : Scripted :=
  let redirect := s.redirects.find? fun r =>
    Text.startsWith url r.start && !(r.unlessCookie.any s.hasCookie)
  { s with
    url := (redirect.map Redirect.goal).getD url
    network :=
      if s.autoNetwork then s.network ++ [⟨url, "GET", some 200, 1, 512, none⟩] else s.network }

def arguments : Operation → List String
  | .fill v | .select v | .press v | .setFiles v => [v]
  | .type text delay => [text, Text.decimal delay]
  | _ => []

/-- The value that an operation puts into an element. -/
def value? : Operation → Option String
  | .fill v | .select v | .type v _ => some v
  | _ => none

/-- Typing takes its time for each character. -/
def typing : Operation → Nat
  | .type text delay => delay * text.length
  | _ => 0

/-- An operation on an element that is there now. -/
def handle (selector : String) (o : Operation) : Call Scripted (Answer (Option String)) := do
  let s ← Call.page
  let now ← Call.now
  match (s.phase? now selector).filter (·.presence ≠ .missing) with
  | none => return .error (.noSuchElement selector)
  | some phase =>
    Call.wait (typing o)
    match value? o with
    | some v => Call.modifyPage fun s => { s with values := update selector v s.values }
    | none => pure ()
    return .ok (if o = .readText then phase.text else none)

def browser : Browser Scripted where
  goto url := call "goto" (some url) [] (do
    Call.modifyPage (·.visit url)
    return .ok ()) pure
  currentUrl := call "current_url" none [] (return .ok ()) fun _ => do
    return (← Call.page).url
  probe selector := call "probe" (some selector) [] (return .ok ()) fun _ => do
    return (← Call.page).presence (← Call.now) selector
  perform selector o := call o.word (some selector) (arguments o) (handle selector o) pure
  evaluate script := call "evaluate" none [script]
    (do return .ok (((← Call.page).scripts.lookup script).getD .null)) pure
  screenshot full := call "screenshot" none [if full then "full" else "viewport"]
    (do return .ok (List.replicate (← Call.page).pictureSize 0)) pure
  snapshot := call "snapshot_session" none [] (return .ok ()) fun _ => do
    let s ← Call.page
    return ⟨s.cookies, s.origins⟩
  restore session := call "restore_session" none [] (do
    Call.modifyPage fun s => { s with cookies := session.cookies, origins := session.origins }
    return .ok ()) pure
  takeRequests := do
    let s ← Call.page
    Call.setPage { s with network := [] }
    return s.network
  finishRecording := call "finish_recording" none []
    (do return .ok (← Call.page).recording) pure
  close := return .ok ()

end Scripted

end Rehearsal
