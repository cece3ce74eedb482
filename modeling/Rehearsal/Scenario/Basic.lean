import Rehearsal.Scenario.StepDocument

/-! # Scenarios

A scenario is a list of steps under an identifier. Its document is checked step by step; the first
fault counts and says which step it is in.
-/
namespace Rehearsal

structure Scenario where
  id : String
  name : Option String
  projectId : Option String
  uiMapId : Option String
  steps : List Step
deriving DecidableEq, Repr

structure ScenarioDocument where
  id : String
  name : Option String
  projectId : Option String
  description : Option String
  uiMapId : Option String
  steps : List StepDocument
deriving DecidableEq, Repr

namespace ScenarioDocument

def fields : List String := ["id", "name", "project_id", "description", "ui_map_id", "steps"]

open Json Reading in
def read : Reading ScenarioDocument := fun t => do
  let m ← Members.ofTree fields "struct ScenarioDocument" t
  return {
    id := ← m.required "id" string
    name := ← m.optional "name" string
    projectId := ← m.optional "project_id" string
    description := ← m.optional "description" string
    uiMapId := ← m.optional "ui_map_id" string
    steps := ← m.orElse "steps" [] (list StepDocument.read) }

/-- The steps of a scenario, the first of `docs` being number `index`. -/
def stepsFrom (id : String) : Nat → List StepDocument → Except DocumentFault (List Step)
  | _, [] => .ok []
  | index, doc :: docs =>
    match doc.toStep with
    | .error fault => .error (.inStep id index fault)
    | .ok step => (stepsFrom id (index + 1) docs).map (step :: ·)

def checkProject (id : String) : Option String → Except DocumentFault Unit
  | none => .ok ()
  | some project =>
    match Session.checkSegment "project_id" project with
    | .ok _ => .ok ()
    | .error fault => .error (.projectId id fault)

def toScenario (d : ScenarioDocument) : Except DocumentFault Scenario := do
  if Text.allBlank d.id then .error .noId
  checkProject d.id d.projectId
  let steps ← stepsFrom d.id 0 d.steps
  return ⟨d.id, d.name, d.projectId, d.uiMapId, steps⟩

end ScenarioDocument

namespace Scenario

def ofText (text : String) : Except DocumentFault Scenario :=
  match Json.readText ScenarioDocument.read text with
  | .ok doc => doc.toScenario
  | .error reason => .error (.unreadable reason)

/-- The name, or else the identifier. -/
def displayName (s : Scenario) : String := s.name.getD s.id

/-- The scenarios played by the steps, in their order and with repetitions. -/
def references (s : Scenario) : List String := s.steps.filterMap (·.instruction.reference?)

/-- Puts a visit to an address before all steps. -/
def withBaseUrl (s : Scenario) (url : String) : Scenario :=
  { s with steps := .ofInstruction (.goto url) :: s.steps }

end Scenario

end Rehearsal
