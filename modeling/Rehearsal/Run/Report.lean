import Rehearsal.Failure
import Rehearsal.Run.Outcome

/-! # Reports

What became of the steps of one scenario, and what this means for the step that had it played.
-/
namespace Rehearsal

/-- `failed` says that a step failed that was not optional. -/
structure Report where
  outcomes : List Outcome
  failed : Bool
  cancelled : Bool
  fatal : Option Failure
deriving DecidableEq, Repr

namespace Report

def empty : Report := ⟨[], false, false, none⟩

def status (r : Report) : RunStatus :=
  if r.fatal.isSome then .failed
  else if r.cancelled then .cancelled
  else if r.failed then .failed
  else .completed

def unknownReason : String := "未知错误"

/-- The first step that failed, with its error. -/
def reason (r : Report) : String :=
  match r.outcomes.find? (·.isFailed) with
  | some o =>
    "步骤#" ++ Text.decimal (o.index + 1) ++ " (" ++ o.action.word ++ "): " ++
      o.error.getD unknownReason
  | none => unknownReason

/-- What the report means for the step that had the scenario `id` played. -/
def settle (r : Report) (id : String) : Except Failure Unit :=
  match r.fatal with
  | some e => .error e
  | none =>
    if r.cancelled then .error .cancelled
    else if r.failed then .error (.nested id r.reason)
    else .ok ()

end Report

end Rehearsal
