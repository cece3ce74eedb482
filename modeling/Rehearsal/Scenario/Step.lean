import Rehearsal.Scenario.Action

/-! # Steps

A step of a scenario after its document has been checked: an instruction that carries the fields it
needs and no others, a name for people, and options for when it fails.
-/
namespace Rehearsal

/-- What is done to an element without a value. -/
inductive Gesture where
  | click
  | doubleClick
  | hover
  | focus
  | scroll
  | check
  | uncheck
deriving DecidableEq, Repr

def Gesture.action : Gesture → Action
  | click => .click
  | doubleClick => .dblclick
  | hover => .hover
  | focus => .focus
  | scroll => .scroll
  | check => .check
  | uncheck => .uncheck

/-- The conditions for being logged in, and the scenario that logs in. -/
structure LoginRule where
  checkUrl : String
  loginScenario : String
  stateName : String
  loggedInSelector : Option String
  loginUrlPattern : String
deriving DecidableEq, Repr

/-- What a step does. The value of `wait` is a number of milliseconds, perhaps with slots in it. -/
inductive Instruction where
  | goto (url : String)
  | interact (gesture : Gesture) (target : String)
  | fill (target value : String)
  | type (target value : String)
  | select (target value : String)
  | press (target key : String)
  | waitFor (target : String)
  | assertText (target value : String)
  | wait (value : String)
  | runScript (script : String)
  | screenshot
  | extract (target saveAs : String)
  | uploadFile (target filePath : String)
  | pasteImage (target filePath : String)
  | runScenario (id : String)
  | saveSession (stateName : String)
  | loadSession (stateName : String)
  | ensureLogin (rule : LoginRule)
deriving DecidableEq, Repr

namespace Instruction

def action : Instruction → Action
  | goto _ => .goto
  | interact gesture _ => gesture.action
  | fill _ _ => .fill
  | type _ _ => .type
  | select _ _ => .select
  | press _ _ => .press
  | waitFor _ => .waitFor
  | assertText _ _ => .assertText
  | wait _ => .wait
  | runScript _ => .runJs
  | screenshot => .screenshot
  | extract _ _ => .extract
  | uploadFile _ _ => .uploadFile
  | pasteImage _ _ => .pasteImage
  | runScenario _ => .runScenario
  | saveSession _ => .saveAuthState
  | loadSession _ => .loadAuthState
  | ensureLogin _ => .ensureAuth

/-- What the instruction is mainly about, as shown to people. -/
def target? : Instruction → Option String
  | goto url => some url
  | interact _ target => some target
  | fill target _ | type target _ | select target _ | press target _ => some target
  | waitFor target => some target
  | assertText target _ | extract target _ => some target
  | uploadFile target _ | pasteImage target _ => some target
  | runScenario id => some id
  | saveSession stateName | loadSession stateName => some stateName
  | ensureLogin rule => some rule.checkUrl
  | wait _ | runScript _ | screenshot => none

/-- The other scenario that the instruction plays. -/
def reference? : Instruction → Option String
  | runScenario id => some id
  | ensureLogin rule => some rule.loginScenario
  | _ => none

end Instruction

/-- What happens when a step fails, and its own time limit in milliseconds. -/
structure StepOptions where
  continueOnError : Bool
  optional : Bool
  timeout : Option Nat
deriving DecidableEq, Repr

def StepOptions.plain : StepOptions := ⟨false, false, none⟩

structure Step where
  name : Option String
  instruction : Instruction
  options : StepOptions
deriving DecidableEq, Repr

namespace Step

def ofInstruction (instruction : Instruction) : Step := ⟨none, instruction, .plain⟩

def action (s : Step) : Action := s.instruction.action

end Step

end Rehearsal
