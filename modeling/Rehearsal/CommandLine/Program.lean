import Rehearsal.CommandLine.Help
import Rehearsal.LogFilter
import Rehearsal.Run.InBrowser

/-! # The program

What the program does with a command line and an environment: what it writes, how it ends and what it
complains about. Its log is that of the world it ran in, seen through a filter.
-/
namespace Rehearsal.CommandLine

open DevTools (Host Tab)
open Run (Beginning)

structure Reply where
  code : Nat
  text : List String
  filter : LogFilter
  complaint : Option String
deriving DecidableEq, Repr

namespace Reply

def misuse : Reply := ⟨2, [], ⟨[]⟩, none⟩

def ofText (lines : List String) : Reply := ⟨0, lines, ⟨[]⟩, none⟩

def refused (filter : LogFilter) (message : String) : Reply := ⟨1, [], filter, some ("Error: " ++ message)⟩

end Reply

def RunOrder.apply (o : RunOrder) (c : Config) : Config :=
  { c with
    headless := c.headless && !o.headed
    defaultTimeoutMs := o.timeout.getD c.defaultTimeoutMs
    projectId := o.project.getD c.projectId
    browserDebugPort := o.port.or c.browserDebugPort }

variable {π : Type} (host : Host π)

def valid (p : Prepared) : LogLine :=
  .info ("✓ 场景 " ++ p.scenario.displayName ++ " 校验通过 (" ++
    Text.decimal p.scenario.steps.length ++ " 步, 项目 " ++ p.projectId ++ ")")

/-- Prepares a run and leaves it at that. -/
def performValidate (config : Config) (filter : LogFilter) (id : String) :
    Timed (World (Tab π)) Reply := do
  let (answer, lines) := prepare config (← Timed.desk) ⟨id, none⟩
  Timed.say lines
  match answer with
  | .error o => return .refused filter o.message
  | .ok prepared => do
    Timed.say [valid prepared]
    return ⟨0, [], filter, none⟩

/-- Runs a scenario; a run that did not end well is told by the exit code alone. -/
def performRun (config : Config) (filter : LogFilter) (o : RunOrder) (b : Beginning) :
    Timed (World (Tab π)) Reply := do
  match ← Run.inBrowser host (o.apply config) ⟨o.scenarioId, o.baseUrl⟩ o.events b with
  | .error obstacle => return .refused filter obstacle.message
  | .ok record => do
    Timed.say (Narration.stats (b.localEpoch.later (← Timed.now)).shown record)
    return ⟨if record.isCompleted then 0 else 1, [], filter, none⟩

def perform (env : String → Option String) (args : List String) (b : Beginning) :
    Timed (World (Tab π)) Reply := do
  match parse (env "RUNNER_CONFIG") args with
  | .misuse => return .misuse
  | .version => return .ofText [versionLine]
  | .help topic => return .ofText (helpLines topic ((env "RUNNER_CONFIG").getD ""))
  | .invocation i => do
    match Config.load (← Timed.desk).disk i.config env with
    | .error reason => return .refused ⟨[]⟩ reason
    | .ok config => do
      let config := { config with verboseLogging := config.verboseLogging || i.verbose }
      let filter := LogFilter.choose (env "RUST_LOG") config.verboseLogging
      match i.order with
      | .validate id => performValidate config filter id
      | .run o => performRun host config filter o b

end Rehearsal.CommandLine
