import Rehearsal.Calendar.Timestamp
import Rehearsal.Json.Record
import Rehearsal.Scenario.Basic

/-! # Outcomes

What became of a step and of a whole run, and how both are written. The outcome of a step that plays
another scenario holds the outcomes of that scenario's steps.
-/
namespace Rehearsal

open Calendar (Timestamp)

inductive StepStatus where
  | success
  | failed
  | skipped
deriving DecidableEq, Repr

namespace StepStatus

def word : StepStatus → String
  | success => "success"
  | failed => "failed"
  | skipped => "skipped"

def ofWord? (s : String) : Option StepStatus :=
  [success, failed, skipped].find? (·.word == s)

end StepStatus

inductive RunStatus where
  | completed
  | failed
  | cancelled
deriving DecidableEq, Repr

namespace RunStatus

def word : RunStatus → String
  | completed => "completed"
  | failed => "failed"
  | cancelled => "cancelled"

def ofWord? (s : String) : Option RunStatus :=
  [completed, failed, cancelled].find? (·.word == s)

end RunStatus

/-- A request of the page that ended while a step was running. -/
structure NetworkRequest where
  url : String
  method : String
  status : Option Nat
  durationMs : Nat
  responseSize : Nat
  error : Option String
deriving DecidableEq, Repr

namespace NetworkRequest

open Json Reading in
def read : Reading NetworkRequest := fun t => do
  let m ← Members.ofTree
    ["url", "method", "status", "duration_ms", "response_size", "error"] "struct NetworkRequest" t
  return {
    url := ← m.required "url" string
    method := ← m.required "method" string
    status := ← m.optional "status" (natural 65535)
    durationMs := ← m.required "duration_ms" (natural Text.wordMax)
    responseSize := ← m.orElse "response_size" 0 (natural Text.wordMax)
    error := ← m.optional "error" string }

open Json in
def toValue (r : NetworkRequest) : Value :=
  .object ([("url", .string r.url), ("method", .string r.method),
    ("status", (r.status.map Value.ofNat).getD .null), ("duration_ms", .ofNat r.durationMs),
    ("response_size", .ofNat r.responseSize)] ++ Value.member? "error" (r.error.map .string))

end NetworkRequest

/-- What became of one step. `index` is its place in its scenario; `selector` says what was used in
the end, an element's selector, an address or the variable that was set. -/
structure Outcome where
  index : Nat
  action : Action
  name : Option String
  status : StepStatus
  selector : Option String
  error : Option String
  durationMs : Nat
  screenshot : Option String
  requests : List NetworkRequest
  logs : List String
  children : List Outcome
deriving Repr

mutual

/-- Equality of outcomes, children included. -/
def Outcome.decEq : (a b : Outcome) → Decidable (a = b)
  | ⟨i, a, n, s, l, e, d, p, r, t, cs⟩, ⟨i', a', n', s', l', e', d', p', r', t', cs'⟩ =>
    if h : i = i' ∧ a = a' ∧ n = n' ∧ s = s' ∧ l = l' ∧ e = e' ∧ d = d' ∧ p = p' ∧ r = r' ∧
        t = t' then
      match Outcome.decEqList cs cs' with
      | isTrue hc => isTrue (by
          obtain ⟨h1, h2, h3, h4, h5, h6, h7, h8, h9, h10⟩ := h
          subst h1 h2 h3 h4 h5 h6 h7 h8 h9 h10 hc
          rfl)
      | isFalse hc => isFalse (by
          intro heq
          injection heq with _ _ _ _ _ _ _ _ _ _ hcs
          exact hc hcs)
    else isFalse (by
      intro heq
      injection heq with h1 h2 h3 h4 h5 h6 h7 h8 h9 h10 _
      exact h ⟨h1, h2, h3, h4, h5, h6, h7, h8, h9, h10⟩)

def Outcome.decEqList : (as bs : List Outcome) → Decidable (as = bs)
  | [], [] => isTrue rfl
  | [], _ :: _ => isFalse (by simp)
  | _ :: _, [] => isFalse (by simp)
  | a :: as, b :: bs =>
    match Outcome.decEq a b, Outcome.decEqList as bs with
    | isTrue h, isTrue hs => isTrue (by rw [h, hs])
    | isFalse h, _ => isFalse (by intro heq; injection heq with h1 _; exact h h1)
    | _, isFalse hs => isFalse (by intro heq; injection heq with _ h2; exact hs h2)

end

instance : DecidableEq Outcome := Outcome.decEq

namespace Outcome

def skipped (index : Nat) (step : Step) : Outcome :=
  { index, action := step.action, name := step.name, status := .skipped, selector := none
    error := none, durationMs := 0, screenshot := none, requests := [], logs := [], children := [] }

def isFailed (o : Outcome) : Bool := o.status == .failed

def isSuccess (o : Outcome) : Bool := o.status == .success

def fields : List String :=
  ["index", "action", "name", "status", "selector", "error", "duration_ms", "screenshot",
    "network_requests", "logs", "children"]

open Json Reading in
/-- Reads an outcome whose children are nested `depth` deep at most. -/
def readWithin : Nat → Reading Outcome
  | 0, _ => .error .tooDeep
  | depth + 1, t => do
    let m ← Members.ofTree fields "struct StepOutcome" t
    return {
      index := ← m.required "index" (natural Text.wordMax)
      action := ← m.required "action" (word Action.ofWord? "an action")
      name := ← m.optional "name" string
      status := ← m.required "status" (word StepStatus.ofWord? "a status")
      selector := ← m.optional "selector" string
      error := ← m.optional "error" string
      durationMs := ← m.required "duration_ms" (natural Text.wordMax)
      screenshot := ← m.optional "screenshot" string
      requests := ← m.orElse "network_requests" [] (list NetworkRequest.read)
      logs := ← m.orElse "logs" [] (list string)
      children := ← m.orElse "children" [] (list (readWithin depth)) }

/-- Two containers of the text stand for one level of children. -/
def read : Json.Reading Outcome := readWithin 64

open Json

mutual

def toValue : Outcome → Value
  | ⟨index, action, name, status, selector, error, durationMs, screenshot, requests, logs,
      children⟩ =>
    .object ([("index", .ofNat index), ("action", .string action.word)] ++
      Value.member? "name" (name.map .string) ++ [("status", .string status.word)] ++
      Value.member? "selector" (selector.map .string) ++
      Value.member? "error" (error.map .string) ++ [("duration_ms", .ofNat durationMs)] ++
      Value.member? "screenshot" (screenshot.map .string) ++
      [("network_requests", .array (requests.map NetworkRequest.toValue)),
        ("logs", .strings logs)] ++
      match children with
      | [] => []
      | child :: rest => [("children", .array (toValue child :: toValues rest))])

def toValues : List Outcome → List Value
  | [] => []
  | o :: os => toValue o :: toValues os

end

end Outcome

structure RunRecord where
  runId : String
  status : RunStatus
  scenarioId : String
  projectId : Option String
  goal : String
  steps : List Outcome
  startTime : Timestamp
  endTime : Option Timestamp
  totalMs : Nat
  artifactDir : Option String
  video : Option String
  error : Option String
deriving Repr, DecidableEq

namespace RunRecord

def fields : List String :=
  ["run_id", "status", "scenario_id", "project_id", "goal", "steps", "start_time", "end_time",
    "total_duration_ms", "artifact_dir", "video", "error"]

open Json Reading in
def time : Reading Timestamp := fun t => do
  match Timestamp.ofText? (← string t) with
  | some time => .ok time
  | none => .error (.wrongValue "string" "a time")

open Json Reading in
def read : Reading RunRecord := fun t => do
  let m ← Members.ofTree fields "struct RunResult" t
  return {
    runId := ← m.required "run_id" string
    status := ← m.required "status" (word RunStatus.ofWord? "a status")
    scenarioId := ← m.required "scenario_id" string
    projectId := ← m.optional "project_id" string
    goal := ← m.required "goal" string
    steps := ← m.required "steps" (list Outcome.read)
    startTime := ← m.required "start_time" time
    endTime := ← m.optional "end_time" time
    totalMs := ← m.required "total_duration_ms" (natural Text.wordMax)
    artifactDir := ← m.optional "artifact_dir" string
    video := ← m.optional "video" string
    error := ← m.optional "error" string }

open Json in
def toValue (r : RunRecord) : Value :=
  let text (s : Option String) : Value := (s.map .string).getD .null
  .object ([("run_id", .string r.runId), ("status", .string r.status.word),
    ("scenario_id", .string r.scenarioId), ("project_id", text r.projectId),
    ("goal", .string r.goal), ("steps", .array (Outcome.toValues r.steps)),
    ("start_time", .string r.startTime.text), ("end_time", text (r.endTime.map Timestamp.text)),
    ("total_duration_ms", .ofNat r.totalMs), ("artifact_dir", text r.artifactDir),
    ("video", text r.video)] ++ Value.member? "error" (r.error.map .string))

def isCompleted (r : RunRecord) : Bool := r.status == .completed

/-- How many steps of the played scenario itself failed. -/
def failedCount (r : RunRecord) : Nat := r.steps.countP (·.isFailed)

def successCount (r : RunRecord) : Nat := r.steps.countP (·.isSuccess)

end RunRecord

inductive Event where
  | runStarted (runId scenarioId : String) (total : Nat)
  | stepStarted (scenarioId : String) (depth index : Nat) (action : Action) (name : Option String)
  | stepLog (scenarioId : String) (depth index : Nat) (line : String)
  | stepEnded (scenarioId : String) (depth : Nat) (outcome : Outcome)
  | runCompleted (result : RunRecord)
deriving Repr, DecidableEq

open Json in
def Event.toValue : Event → Value
  | runStarted runId scenarioId total =>
    .object [("type", .string "run_started"), ("run_id", .string runId),
      ("scenario_id", .string scenarioId), ("total_steps", .ofNat total)]
  | stepStarted scenarioId depth index action name =>
    .object [("type", .string "step_started"), ("scenario_id", .string scenarioId),
      ("depth", .ofNat depth), ("index", .ofNat index), ("action", .string action.word),
      ("name", (name.map .string).getD .null)]
  | stepLog scenarioId depth index line =>
    .object [("type", .string "step_log"), ("scenario_id", .string scenarioId),
      ("depth", .ofNat depth), ("index", .ofNat index), ("line", .string line)]
  | stepEnded scenarioId depth outcome =>
    .object [("type", .string "step_ended"), ("scenario_id", .string scenarioId),
      ("depth", .ofNat depth), ("outcome", outcome.toValue)]
  | runCompleted result =>
    .object [("type", .string "run_completed"), ("result", result.toValue)]

end Rehearsal
