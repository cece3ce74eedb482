import Rehearsal.DevTools.Host
import Rehearsal.Run.Basic
import Rehearsal.Run.Narration

/-! # Runs in a browser

A run from its preparation to the release of the browser. Once there is a page it is closed again,
whatever becomes of the run.
-/
namespace Rehearsal.Run

open Calendar (Timestamp)
open DevTools (Host Tab)

/-- When a run begins, as an instant and as the clocks of the place show it, and its identifier. -/
structure Beginning where
  epoch : Timestamp
  localEpoch : Timestamp
  runId : String
deriving DecidableEq, Repr

variable {π : Type} (host : Host π) (config : Config)

def stageOf (desk : Desk) (prepared : Prepared) (sink : ArtifactSink) (listening : Bool)
    (epoch : Timestamp) : Stage (Tab π) where
  settings := .ofConfig config desk.disk prepared.projectId
  selectors := prepared.selectors
  resources := .folder config.resourcesDir
  browser := Tab.browser host.endpoint
  scenarios := prepared.source
  sessions := .files config.sessionsDir
  sink
  listening
  epoch

/-- Makes the folder of a run and runs in the page that is open. -/
def inTab (prepared : Prepared) (listening : Bool) (b : Beginning) :
    Timed (World (Tab π)) (Except Obstacle RunRecord) := do
  let stamp := (b.localEpoch.later (← Timed.now)).stamp
  let (answer, desk, lines) := ArtifactSink.create (← Timed.desk) config.artifactsDir stamp b.runId
  Timed.setDesk desk
  Timed.say lines
  match answer with
  | .error e => return .error (.failure e)
  | .ok sink => do
    Timed.say [.info ("📂 产物目录: " ++ sink.location.getD "")]
    return .ok (← run (stageOf host config desk prepared sink listening b.epoch) prepared.scenario b.runId)

def inBrowser (request : Request) (listening : Bool) (b : Beginning) :
    Timed (World (Tab π)) (Except Obstacle RunRecord) := do
  let (answer, lines) := prepare config (← Timed.desk) request
  Timed.say lines
  match answer with
  | .error o => return .error o
  | .ok prepared => do
    Timed.say (Narration.startup config)
    match ← (host.openTab config).run with
    | .error o => return .error o
    | .ok _ => do
      let record ← inTab host config prepared listening b
      (host.closeTab config).run
      return record

end Rehearsal.Run
