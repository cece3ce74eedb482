import Rehearsal.Artifacts
import Rehearsal.Run.Place
import Rehearsal.Run.Report
import Rehearsal.Run.World
import Rehearsal.Scenario.Source
import Rehearsal.Session.Store
import Rehearsal.Task.OfStep

/-! # The stage of a run

Whom a run works with, and the record it keeps of the step it is at. The playing of a scenario by a
step is left open: the runner is given to whoever needs it.
-/
namespace Rehearsal

open Calendar (Timestamp)

structure Stage (σ : Type) extends Bench where
  browser : Browser σ
  scenarios : ScenarioSource
  sessions : SessionStore
  sink : ArtifactSink
  /-- Whether anyone listens to events. -/
  listening : Bool
  /-- The time of day at the start of the clock. -/
  epoch : Timestamp

/-- What a step leaves behind besides its success: lines, the selector in the end, a picture, and the
outcomes of the steps it had played. -/
structure Trace where
  logs : List String
  selector : Option String
  screenshot : Option String
  children : List Outcome
deriving DecidableEq, Repr

def Trace.empty : Trace := ⟨[], none, none, []⟩

/-- Has the scenario `id` played by a step of the scenario last on the stack. -/
abbrev Runner (σ : Type) :=
  (id : String) → CallStack → (depth : Nat) → Timed (World σ) (Except Failure Report)

/-- What a step does: it may fail, and it keeps its trace. -/
abbrev Work (σ α : Type) := ExceptT Failure (Timed (World σ × Trace)) α

namespace Stage

variable {σ : Type}

def tell (stage : Stage σ) (e : Event) : Timed (World σ) Unit :=
  if stage.listening then Timed.modify (·.tell e) else pure ()

/-- Adds a line to the trace of a step, and tells it. -/
def note (stage : Stage σ) (place : Place) (line : String) : Timed (World σ × Trace) Unit := do
  Timed.onFirst (Timed.say [.debug (place.text ++ " " ++ line)])
  Timed.onFirst (stage.tell (.stepLog place.scenario place.depth place.index line))
  Timed.modifySecond fun t => { t with logs := t.logs ++ [line] }

end Stage

namespace Work

variable {σ α : Type}

/-- Work that may fail and does not touch the trace. -/
def ofWorld (work : Timed (World σ) (Except Failure α)) : Work σ α := ExceptT.mk (Timed.onFirst work)

def lift (work : Timed (World σ) α) : Work σ α := ExceptT.lift (Timed.onFirst work)

/-- A call whose fault is the step's failure. -/
def ask (call : Call σ (Answer α)) : Work σ α :=
  ofWorld do
    match ← call.run with
    | .ok a => return .ok a
    | .error fault => return .error (.browser fault)

def askScript (call : Call σ (Answer α)) : Work σ α :=
  ofWorld do
    match ← call.run with
    | .ok a => return .ok a
    | .error fault => return .error (.ofScript fault)

def ofExcept (r : Except Failure α) : Work σ α := ExceptT.mk (pure r)

def note (stage : Stage σ) (place : Place) (line : String) : Work σ Unit :=
  ExceptT.lift (stage.note place line)

def say (lines : List LogLine) : Work σ Unit := lift (Timed.say lines)

def setSelector (selector : String) : Work σ Unit :=
  ExceptT.lift (Timed.modifySecond fun t => { t with selector := some selector })

def setScreenshot (reference : String) : Work σ Unit :=
  ExceptT.lift (Timed.modifySecond fun t => { t with screenshot := some reference })

def addChildren (outcomes : List Outcome) : Work σ Unit :=
  ExceptT.lift (Timed.modifySecond fun t => { t with children := t.children ++ outcomes })

/-- Keeps the failure as a value. -/
def try_ (work : Work σ α) : Work σ (Except Failure α) := ExceptT.mk (ExceptT.run work >>= fun r => pure (.ok r))

def storeScreenshot (stage : Stage σ) (name : String) (png : Disk.Bytes) : Work σ String :=
  ofWorld do
    let (answer, desk) := stage.sink.storeScreenshot (← Timed.desk) name png
    Timed.setDesk desk
    return answer

/-- Moves the outcomes of a report into the trace and takes the report's meaning. -/
def settle (report : Report) (id : String) : Work σ Unit := do
  addChildren report.outcomes
  ofExcept (report.settle id)

end Work

end Rehearsal
