import Rehearsal.Run.Narration
import Rehearsal.Run.Perform

/-! # Playing scenarios

The steps of a scenario one after another, each with its trace, its pictures and the requests of the
page, and what a failure means for the steps after it. A step may have another scenario played, which
is not allowed for one that is being played already.
-/
namespace Rehearsal

namespace Step

/-- After a failure of this step the next one is played all the same. -/
def continues (s : Step) : Bool := s.options.continueOnError

/-- A failure of this step is one of the scenario. -/
def counts (s : Step) : Bool := !s.options.optional

end Step

namespace Report

/-- The outcomes of steps not reached, the first of which is number `index`. -/
def skippedFrom : Nat → List Step → List Outcome
  | _, [] => []
  | index, step :: rest => Outcome.skipped index step :: skippedFrom (index + 1) rest

/-- The run was cancelled before these steps. -/
def cancelledBefore (index : Nat) (steps : List Step) : Report :=
  ⟨skippedFrom index steps, false, true, none⟩

def after (o : Outcome) (failed : Bool) (r : Report) : Report :=
  { r with outcomes := o :: r.outcomes, failed := failed || r.failed }

end Report

namespace Play

variable {σ : Type}

/-- What a step may take longer than its own time limit before it is given up. -/
def grace : Nat := 100

/-- After these actions no picture is taken of a success. -/
def isCaptured : Action → Bool
  | .screenshot | .wait | .runScenario | .ensureAuth | .saveAuthState | .loadAuthState => false
  | _ => true

/-- Does a task under the time limit of its step, unless it keeps its own time. -/
def guarded (task : Task) (work : Timed (World σ × Trace) (Except Failure Unit)) :
    Timed (World σ × Trace) (Except Failure Unit) :=
  if task.keepsOwnTime then work
  else do
    match ← Timed.within (task.timeout + grace) work with
    | some r => return r
    | none => return .error (.timeout task.action.word task.timeout)

/-- Makes a step ready and does what it says. -/
def attempt (stage : Stage σ) (runner : Runner σ) (place : Place) (stack : CallStack) (stem : String)
    (step : Step) : Timed (World σ × Trace) (Except Failure Unit) := do
  let desk ← Timed.onFirst Timed.desk
  let scope ← Timed.onFirst Timed.scope
  Timed.onFirst (Timed.say (stage.referenceLines scope step.instruction))
  match stage.task desk scope step with
  | .error e => return .error e
  | .ok task => do
    for name in task.unset do
      Timed.onFirst (Timed.say [.warn ("⚠️ 变量 " ++ name ++ " 未定义，按原文保留")])
      stage.note place ("⚠️ 变量 \x7b\x7b" ++ name ++ "\x7d\x7d 未定义，按原文保留")
    let work := (Perform.deed stage runner place stack stem task.timeout task.deed).run
    match ← Timed.untilCancelled (guarded task work) with
    | some r => return r
    | none => return .error .cancelled

/-- Takes a picture of the whole page; that it cannot be had is only worth a warning. -/
def capture (stage : Stage σ) (name : String) : Timed (World σ × Trace) Unit := do
  match ← Timed.onFirst (stage.browser.screenshot true).run with
  | .error fault => Timed.onFirst (Timed.say [.warn ("⚠️ 截图失败: " ++ fault.message)])
  | .ok png =>
    match ← (Work.storeScreenshot stage name png).run with
    | .ok stored => Timed.modifySecond fun t => { t with screenshot := some stored }
    | .error e => Timed.onFirst (Timed.say [.warn ("⚠️ 截图保存失败: " ++ e.message)])

/-- The picture that goes with how a step ended. -/
def captureAfter (stage : Stage σ) (action : Action) (stem : String) (r : Except Failure Unit) :
    Timed (World σ × Trace) Unit :=
  match r with
  | .ok _ =>
    if stage.settings.captureEveryStep && isCaptured action then capture stage (stem ++ ".png")
    else pure ()
  | .error e =>
    if e.isFatal || e = .cancelled then pure () else capture stage (stem ++ "_error.png")

/-- Begins the name of a step's pictures: its number in the run, and its action. -/
def stem (number : Nat) (action : Action) : String := Text.padded 3 number ++ "_" ++ action.word

/-- Plays one step to its outcome, with the failure if it failed. -/
def step (stage : Stage σ) (runner : Runner σ) (place : Place) (stack : CallStack) (step : Step) :
    Timed (World σ) (Outcome × Option Failure) := do
  let started ← Timed.now
  let number ← Timed.begin_
  let stem := stem number step.action
  let _ ← stage.browser.takeRequests.run
  let ((failure, requests), trace) ← Timed.withOwn Trace.empty (do
    let r ← attempt stage runner place stack stem step
    captureAfter stage step.action stem r
    let requests ← Timed.onFirst stage.browser.takeRequests.run
    match r with
    | .ok _ => return (none, requests)
    | .error e => do
      stage.note place ("❌ " ++ e.message)
      return (some e, requests))
  let ended ← Timed.now
  return ({
    index := place.index
    action := step.action
    name := step.name
    status := if failure.isSome then .failed else .success
    selector := trace.selector
    error := failure.map Failure.message
    durationMs := ended - started
    screenshot := trace.screenshot
    requests
    logs := trace.logs
    children := trace.children }, failure)

def turn (stage : Stage σ) (runner : Runner σ) (place : Place) (stack : CallStack) (s : Step) :
    Timed (World σ) (Outcome × Option Failure) := do
  Timed.say [Narration.stepStart place s]
  stage.tell (.stepStarted place.scenario place.depth place.index s.action s.name)
  let (outcome, failure) ← step stage runner place stack s
  Timed.say [Narration.stepEnd place outcome]
  stage.tell (.stepEnded place.scenario place.depth outcome)
  Timed.modify (·.close ⟨place, stack, s, outcome, failure⟩)
  return (outcome, failure)

/-- Plays steps in their order, the first of which is number `index`. -/
def stepsFrom (stage : Stage σ) (runner : Runner σ) (id : String) (stack : CallStack) (depth : Nat) :
    Nat → List Step → Timed (World σ) Report
  | _, [] => pure Report.empty
  | index, s :: rest => do
    if ← Timed.isCancelled then return .cancelledBefore index (s :: rest)
    let (outcome, failure) ← turn stage runner ⟨id, index, depth⟩ stack s
    match failure with
    | none => return (← stepsFrom stage runner id stack depth (index + 1) rest).after outcome false
    | some e =>
      if e.isFatal then
        return ⟨outcome :: Report.skippedFrom (index + 1) rest, true, false, some e⟩
      else if e = .cancelled then
        return ⟨outcome :: Report.skippedFrom (index + 1) rest, false, true, none⟩
      else if s.continues then
        return (← stepsFrom stage runner id stack depth (index + 1) rest).after outcome s.counts
      else
        return ⟨outcome :: Report.skippedFrom (index + 1) rest, s.counts, false, none⟩

/-- Has a scenario played by a step `depth` deep. -/
def enter (stage : Stage σ) (runner : Runner σ) : Runner σ := fun id stack depth => do
  if stack.contains id then
    let chain := stack.chainTo id
    Timed.say [.error ("🔁 检测到场景循环引用: " ++ Text.joinWith " -> " chain)]
    return .error (.cyclicReference chain)
  let (answer, lines) := stage.scenarios.load (← Timed.desk) id
  Timed.say lines
  match answer with
  | .error e => return .error e
  | .ok none => return .error (.scenarioMissing id)
  | .ok (some s) =>
    Timed.say [.info ("📂 子场景 " ++ s.displayName ++ " 开始 (" ++ Text.decimal s.steps.length ++
      " 步, 层级 " ++ Text.decimal (depth + 1) ++ ")")]
    let report ← stepsFrom stage runner s.id (stack.push id) (depth + 1) 0 s.steps
    let word := match report.status with
      | .completed => "Completed"
      | .failed => "Failed"
      | .cancelled => "Cancelled"
    Timed.say [.info ("📂 子场景 " ++ id ++ " 结束: " ++ word)]
    return .ok report

/-- The runner for scenarios that may play others, `fuel` of them at most inside one another. A stack
that is deeper holds one scenario twice. -/
def nested (stage : Stage σ) : Nat → Runner σ
  | 0 => fun id stack _ => return .error (.cyclicReference (stack.chainTo id))
  | fuel + 1 => enter stage (nested stage fuel)

/-- More scenarios than can be inside one another: each of them is a different one of the source. -/
def depthLimit (stage : Stage σ) (desk : Desk) : Nat := (stage.scenarios.ids desk).length + 1

def runner (stage : Stage σ) : Runner σ := fun id stack depth => do
  nested stage (depthLimit stage (← Timed.desk)) id stack depth

end Play

end Rehearsal
