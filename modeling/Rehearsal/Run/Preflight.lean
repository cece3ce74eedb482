import Rehearsal.Failure
import Rehearsal.Log
import Rehearsal.Scenario.Source

/-! # Rehearsing the references

Before anything is played, the scenarios are looked at to which the steps refer, in depth and each one
once. A scenario on the way to itself is a circle. One that is missing is only worth a warning, since
the step that needs it will fail in its turn.
-/
namespace Rehearsal.Preflight

inductive Verdict where
  | clear
  | refused (e : Failure)
  /-- The search went deeper than its limit. -/
  | unfinished
deriving DecidableEq, Repr

/-- The identifiers done with, those asked of the source in the order they were, and the lines said so
far. -/
structure Search where
  finished : List String
  asked : List String
  lines : List LogLine
deriving DecidableEq, Repr

abbrev Load := String → Except Failure (Option Scenario) × List LogLine

namespace Search

def empty : Search := ⟨[], [], []⟩

def ask (s : Search) (id : String) : Search := { s with asked := s.asked ++ [id] }

def finish (s : Search) (id : String) : Search := { s with finished := id :: s.finished }

def say (s : Search) (lines : List LogLine) : Search := { s with lines := s.lines ++ lines }

variable (s : Search) (id : String) (lines : List LogLine)

@[simp] theorem finished_ask : (s.ask id).finished = s.finished := rfl

@[simp] theorem asked_ask : (s.ask id).asked = s.asked ++ [id] := rfl

@[simp] theorem finished_finish : (s.finish id).finished = id :: s.finished := rfl

@[simp] theorem asked_finish : (s.finish id).asked = s.asked := rfl

@[simp] theorem finished_say : (s.say lines).finished = s.finished := rfl

@[simp] theorem asked_say : (s.say lines).asked = s.asked := rfl

end Search

def missing (id : String) : LogLine := .warn ("⚠️ 引用的场景 " ++ id ++ " 不存在，执行到该步骤时会失败")

def found (s : Scenario) : LogLine :=
  .debug ("预检: " ++ s.id ++ " 引用 " ++ Text.decimal s.references.length)

/-- What a look at a reference comes to. -/
inductive Look where
  | refused (e : Failure) (s : Search)
  /-- There is nothing to be searched. -/
  | passed (s : Search)
  | entered (scenario : Scenario) (s : Search)

def look (load : Load) (path : List String) (s : Search) (next : String) : Look :=
  if path.contains next then .refused (.cyclicReference (path ++ [next])) s
  else if s.finished.contains next then .passed s
  else
    let (answer, lines) := load next
    let s := (s.ask next).say lines
    match answer with
    | .error e => .refused e s
    | .ok none => .passed ((s.say [missing next]).finish next)
    | .ok (some scenario) => .entered scenario (s.say [found scenario])

/-- Goes on where nothing wrong was found. -/
def onward (r : Verdict × Search) (next : Search → Verdict × Search) : Verdict × Search :=
  match r with
  | (.clear, s) => next s
  | stopped => stopped

/-- Goes through the references of the last scenario on the path; `deeper` searches one of them. -/
def scan (load : Load) (deeper : List String → Search → List String → Verdict × Search)
    (path : List String) : Search → List String → Verdict × Search
  | s, [] => (.clear, s.finish (path.getLastD ""))
  | s, next :: rest =>
    match look load path s next with
    | .refused e s => (.refused e, s)
    | .passed s => scan load deeper path s rest
    | .entered scenario s =>
      onward (deeper (path ++ [scenario.id]) s scenario.references) fun s =>
        scan load deeper path s rest

section

variable {load : Load} {deeper : List String → Search → List String → Verdict × Search}
  {path : List String} {s t : Search} {next : String} {rest : List String}

theorem scan_refused {e : Failure} (h : look load path s next = .refused e t) :
    scan load deeper path s (next :: rest) = (.refused e, t) := by
  rw [scan, h]

theorem scan_passed (h : look load path s next = .passed t) :
    scan load deeper path s (next :: rest) = scan load deeper path t rest := by
  rw [scan, h]

theorem scan_entered {scenario : Scenario} (h : look load path s next = .entered scenario t) :
    scan load deeper path s (next :: rest) =
      onward (deeper (path ++ [scenario.id]) t scenario.references) fun t =>
        scan load deeper path t rest := by
  rw [scan, h]

end

def giveUp : List String → Search → List String → Verdict × Search := fun _ s _ => (.unfinished, s)

/-- Searches at most `depth` scenarios deep. -/
def visit (load : Load) : Nat → List String → Search → List String → Verdict × Search
  | 0 => scan load giveUp
  | depth + 1 => scan load (visit load depth)

/-- The whole search from a scenario within a limit of depth. -/
def search (depth : Nat) (load : Load) (root : Scenario) : Verdict × Search :=
  visit load depth [root.id] .empty root.references

/-- A limit of depth for a source of `n` scenarios: on a longer path one of them would be met again
with the same identifiers on the path and the same ones done with. -/
def depthLimit (n : Nat) : Nat := (n + 1) * (2 * n + 4)

/-- The verdict on a scenario. A search without end goes in circles. -/
def check (source : ScenarioSource) (desk : Desk) (root : Scenario) :
    Except Failure Unit × List LogLine :=
  match search (depthLimit (source.ids desk).length) (source.load desk) root with
  | (.clear, s) => (.ok (), s.lines)
  | (.refused e, s) => (.error e, s.lines)
  | (.unfinished, s) => (.error (.cyclicReference [root.id]), s.lines)

end Rehearsal.Preflight
