import Rehearsal.Failure
import Rehearsal.Json.Record
import Rehearsal.Scenario.Step

/-! # Documents of steps

A step as it is written: an action and a flat row of optional fields. A field that is blank counts as
missing. What an action asks for is checked once, in `toStep`; the instruction that results holds its
fields untrimmed.
-/
namespace Rehearsal

structure StepDocument where
  action : String
  name : Option String
  target : Option String
  url : Option String
  value : Option String
  saveAs : Option String
  scenarioId : Option String
  filePath : Option String
  stateName : Option String
  checkUrl : Option String
  loginScenarioId : Option String
  loggedInSelector : Option String
  loginUrlPattern : Option String
  timeout : Option Nat
  continueOnError : Option Bool
  optional : Option Bool
deriving DecidableEq, Repr

namespace StepDocument

def fields : List String :=
  ["action", "name", "target", "url", "value", "save_as", "scenario_id", "file_path", "state_name",
    "check_url", "login_scenario_id", "logged_in_selector", "login_url_pattern", "timeout",
    "continue_on_error", "optional"]

open Json Reading in
def read : Reading StepDocument := fun t => do
  let m ← Members.ofTree fields "struct StepDocument" t
  return {
    action := ← m.required "action" string
    name := ← m.optional "name" string
    target := ← m.optional "target" string
    url := ← m.optional "url" string
    value := ← m.optional "value" string
    saveAs := ← m.optional "save_as" string
    scenarioId := ← m.optional "scenario_id" string
    filePath := ← m.optional "file_path" string
    stateName := ← m.optional "state_name" string
    checkUrl := ← m.optional "check_url" string
    loginScenarioId := ← m.optional "login_scenario_id" string
    loggedInSelector := ← m.optional "logged_in_selector" string
    loginUrlPattern := ← m.optional "login_url_pattern" string
    timeout := ← m.optional "timeout" (natural Text.wordMax)
    continueOnError := ← m.optional "continue_on_error" bool
    optional := ← m.optional "optional" bool }

open Json in
def toValue (d : StepDocument) : Value :=
  let text (key : String) (s : Option String) := Value.member? key (s.map .string)
  .object ([("action", .string d.action)] ++ text "name" d.name ++ text "target" d.target ++
    text "url" d.url ++ text "value" d.value ++ text "save_as" d.saveAs ++
    text "scenario_id" d.scenarioId ++ text "file_path" d.filePath ++
    text "state_name" d.stateName ++ text "check_url" d.checkUrl ++
    text "login_scenario_id" d.loginScenarioId ++ text "logged_in_selector" d.loggedInSelector ++
    text "login_url_pattern" d.loginUrlPattern ++
    Value.member? "timeout" (d.timeout.map Value.ofNat) ++
    Value.member? "continue_on_error" (d.continueOnError.map .bool) ++
    Value.member? "optional" (d.optional.map .bool))

def defaultStateName : String := "default"

/-- What the address of a login page contains when nothing else is given. -/
def defaultLoginUrlPattern : String := "/login"

def defaultKey : String := "Enter"

def present (field : Option String) : Option String := field.filter fun v => !Text.allBlank v

def require (action : Action) (field : String) (value : Option String) :
    Except DocumentFault String :=
  match present value with
  | some v => .ok v
  | none => .error (.missingField action field)

/-- The name of a saved session, refused when it cannot be part of a path. -/
def stateKey (action : Action) (name : String) : Except DocumentFault String :=
  match Session.checkSegment "state_name" name with
  | .ok _ => .ok name
  | .error fault => .error (.stateName action fault)

/-- The number of milliseconds of a `wait`, blanks around it aside. -/
def waitMillis (value : String) : Except DocumentFault Nat :=
  match Text.natural? Text.wordMax (Text.trim value) with
  | some n => .ok n
  | none => .error (.waitValue value)

/-- The value of a `wait`: one without two opening braces must be a number already. -/
def waitValue (value : String) : Except DocumentFault String :=
  if Text.contains value "\x7b\x7b" then .ok value else (waitMillis value).map fun _ => value

open Instruction in
/-- The instruction of a document with this action. -/
def instruction (d : StepDocument) (action : Action) : Except DocumentFault Instruction :=
  let target := require action "target" d.target
  let value := require action "value" d.value
  let file := require action "file_path" ((present d.filePath).or d.value)
  let gesture (g : Gesture) := target.map (interact g)
  match action with
  | .goto => (require action "url" d.url).map goto
  | .click => gesture .click
  | .dblclick => gesture .doubleClick
  | .hover => gesture .hover
  | .focus => gesture .focus
  | .scroll => gesture .scroll
  | .check => gesture .check
  | .uncheck => gesture .uncheck
  | .fill => do return fill (← target) (← value)
  | .type => do return type (← target) (← value)
  | .select => do return select (← target) (← value)
  | .press => do return press (← target) ((present d.value).getD defaultKey)
  | .waitFor => target.map waitFor
  | .assertText => do return assertText (← target) (← value)
  | .wait => do return wait (← waitValue (← value))
  | .runJs => value.map runScript
  | .screenshot => .ok screenshot
  | .extract => do
    return extract (← target) (← require action "save_as" ((present d.saveAs).or d.value))
  | .uploadFile => do return uploadFile (← target) (← file)
  | .pasteImage => do return pasteImage (← target) (← file)
  | .runScenario =>
    (require action "scenario_id" ((present d.scenarioId).or d.value)).map runScenario
  | .saveAuthState =>
    (stateKey action (((present d.stateName).or (present d.value)).getD defaultStateName)).map
      saveSession
  | .loadAuthState => do
    let name ← require action "state_name" ((present d.stateName).or d.value)
    return loadSession (← stateKey action name)
  | .ensureAuth => do
    let checkUrl ← require action "check_url" ((present d.checkUrl).or d.url)
    let loginScenario ←
      require action "login_scenario_id" ((present d.loginScenarioId).or d.scenarioId)
    let stateName ← stateKey action ((present d.stateName).getD defaultStateName)
    return ensureLogin {
      checkUrl, loginScenario, stateName
      loggedInSelector := (present d.loggedInSelector).or (present d.target)
      loginUrlPattern := d.loginUrlPattern.getD defaultLoginUrlPattern }

/-- Checks a document. Blanks around the action are no part of it. -/
def toStep (d : StepDocument) : Except DocumentFault Step := do
  let action ← match Action.ofWord? (Text.trim d.action) with
    | some action => .ok action
    | none => .error (.unknownAction d.action)
  let instruction ← d.instruction action
  return {
    name := present d.name
    instruction
    options := ⟨d.continueOnError.getD false, d.optional.getD false, d.timeout⟩ }

end StepDocument

end Rehearsal
