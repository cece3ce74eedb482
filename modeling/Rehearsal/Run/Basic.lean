import Rehearsal.Run.Play
import Rehearsal.Run.Preflight

/-! # Runs

A whole run: the references are rehearsed, the steps played, the recording ended and the record
stored. A failure of any kind is told in the record.
-/
namespace Rehearsal

open Calendar (Timestamp)

def Calendar.Timestamp.later (t : Timestamp) (millis : Nat) : Timestamp :=
  let nanos := t.nano + millis * 1000000
  ⟨t.second + (nanos / 1000000000 : Nat), nanos % 1000000000⟩

namespace Run

variable {σ : Type}

/-- How a run ended, before its record is made. -/
structure Ending where
  status : RunStatus
  error : Option String
  steps : List Outcome
deriving DecidableEq, Repr

def Ending.ofReport (r : Report) : Ending where
  status := r.status
  error :=
    match r.fatal with
    | some e => some e.message
    | none => if r.cancelled then some Failure.cancelled.message else none
  steps := r.outcomes

/-- The references are refused, and no step is reached. -/
def Ending.refused (scenario : Scenario) (e : Failure) : Ending :=
  ⟨.failed, some e.message, Report.skippedFrom 0 scenario.steps⟩

def perform (stage : Stage σ) (scenario : Scenario) : Timed (World σ) Ending := do
  let (verdict, lines) := Preflight.check stage.scenarios (← Timed.desk) scenario
  Timed.say lines
  match verdict with
  | .error e => do
    Timed.say [.error ("❌ 预检失败: " ++ e.message)]
    return .refused scenario e
  | .ok _ => do
    Timed.modify fun w => { w with scope := .empty }
    let report ←
      Play.stepsFrom stage (Play.runner stage) scenario.id (.root scenario.id) 0 0 scenario.steps
    return .ofReport report

def finishRecording (stage : Stage σ) : Timed (World σ) (Option String) := do
  match ← stage.browser.finishRecording.run with
  | .ok video => return video
  | .error fault => do
    Timed.say [.warn ("⚠️ 录像保存失败: " ++ fault.message)]
    return none

/-- Stores the record of a run; that it cannot be stored is only worth a warning. -/
def store (stage : Stage σ) (record : RunRecord) : Timed (World σ) Unit := do
  let (answer, desk) := stage.sink.storeResult (← Timed.desk) record
  Timed.setDesk desk
  match answer with
  | .ok _ => pure ()
  | .error e => Timed.say [.warn ("⚠️ 运行结果写入失败: " ++ e.message)]

/-- Makes the record of a run that has ended, stores it and tells of it. -/
def conclude (stage : Stage σ) (scenario : Scenario) (runId : String) (started : Nat)
    (ending : Ending) : Timed (World σ) RunRecord := do
  let video ← finishRecording stage
  let ended ← Timed.now
  let record : RunRecord := {
    runId
    status := ending.status
    scenarioId := scenario.id
    projectId := some stage.settings.projectId
    goal := scenario.displayName
    steps := ending.steps
    startTime := stage.epoch.later started
    endTime := some (stage.epoch.later ended)
    totalMs := ended - started
    artifactDir := stage.sink.location
    video
    error := ending.error }
  store stage record
  Timed.say (Narration.runEnd record)
  stage.tell (.runCompleted record)
  return record

def run (stage : Stage σ) (scenario : Scenario) (runId : String) : Timed (World σ) RunRecord := do
  let started ← Timed.now
  Timed.say (Narration.runStart runId scenario)
  stage.tell (.runStarted runId scenario.id scenario.steps.length)
  let ending ← perform stage scenario
  conclude stage scenario runId started ending

end Run

end Rehearsal
