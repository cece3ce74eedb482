import Rehearsal.Config
import Rehearsal.Page.Address
import Rehearsal.Page.Selector
import Rehearsal.Resource
import Rehearsal.Scenario.StepDocument
import Rehearsal.Scope
import Rehearsal.Task.Basic

/-! # From steps to tasks

A step is made ready with the variables as they are at that moment. Scripts, the names of scenarios,
of saved sessions and of variables to be set are taken as they are written; every other text is a
template. A reference to a resource is none, since its file is looked up under the name as written.
-/
namespace Rehearsal

open Disk (Path)

/-- What steps are made ready with, variables apart. -/
structure Bench where
  settings : Settings
  selectors : Selectors
  resources : ResourceResolver

namespace Bench

/-- Keeps the first of equal names. -/
def distinct (names : List String) : List String :=
  names.foldl (fun (kept : List String) name => if kept.contains name then kept else kept ++ [name]) []

/-- The templates of an instruction, in the order they are filled in. -/
def templates : Instruction → List String
  | .goto url => [url]
  | .interact _ target | .waitFor target | .extract target _ => [target]
  | .fill target value | .type target value | .select target value => [target, value]
  | .press target key => [target, key]
  | .assertText target value => [target, value]
  | .wait value => [value]
  | .uploadFile target path | .pasteImage target path =>
    if (ResourceResolver.reference? path).isSome then [target] else [target, path]
  | .ensureLogin rule => rule.checkUrl :: rule.loggedInSelector.toList
  | .runScript _ | .screenshot | .runScenario _ | .saveSession _ | .loadSession _ => []

def address (b : Bench) (d : Desk) (url : String) : String :=
  Address.complete (d.disk.absolute b.settings.workingDir) url

/-- The path of a file: that of a resource, or one from the working folder on. -/
def filePath (b : Bench) (d : Desk) (scope : Scope) (raw : String) : Except Failure Path :=
  match ResourceResolver.reference? raw with
  | some id => b.resources.resolve d b.settings.projectId id
  | none => .ok (Path.join b.settings.workingDir (scope.fill raw))

def deed (b : Bench) (d : Desk) (scope : Scope) (instruction : Instruction) : Except Failure Deed :=
  let candidates (target : String) := b.selectors.resolve (scope.fill target)
  match instruction with
  | .goto url => .ok (.navigate (b.address d (scope.fill url)))
  | .interact gesture target => .ok (.element (candidates target) gesture.operation)
  | .fill target value => .ok (.element (candidates target) (.fill (scope.fill value)))
  | .type target value =>
    .ok (.element (candidates target) (.type (scope.fill value) b.settings.typeDelay))
  | .select target value => .ok (.element (candidates target) (.select (scope.fill value)))
  | .press target key => .ok (.element (candidates target) (.press (scope.fill key)))
  | .waitFor target => .ok (.waitVisible (candidates target))
  | .assertText target value => .ok (.assertText (candidates target) (scope.fill value))
  | .wait value =>
    match StepDocument.waitMillis (scope.fill value) with
    | .ok millis => .ok (.sleep millis)
    | .error fault => .error (.document fault)
  | .runScript script => .ok (.script script)
  | .screenshot => .ok .screenshot
  | .extract target saveAs => .ok (.extract (candidates target) saveAs)
  | .uploadFile target path => (b.filePath d scope path).map (.upload (candidates target))
  | .pasteImage target path => (b.filePath d scope path).map (.pasteImage (candidates target))
  | .runScenario id => .ok (.runScenario id)
  | .saveSession stateName => .ok (.saveSession stateName)
  | .loadSession stateName => .ok (.loadSession stateName)
  | .ensureLogin rule =>
    .ok (.ensureLogin {
      checkUrl := b.address d (scope.fill rule.checkUrl)
      loginScenario := rule.loginScenario
      stateName := rule.stateName
      loggedIn := rule.loggedInSelector.map candidates
      loginUrlPattern := rule.loginUrlPattern })

def task (b : Bench) (d : Desk) (scope : Scope) (step : Step) : Except Failure Task :=
  (b.deed d scope step.instruction).map fun deed =>
    { action := step.action
      timeout := step.options.timeout.getD b.settings.defaultTimeout
      deed
      unset := distinct ((templates step.instruction).flatMap scope.unset) }

/-- The debug lines about references to maps. They name the selectors found. -/
def referenceLines (b : Bench) (scope : Scope) (instruction : Instruction) : List LogLine :=
  let targets := match instruction with
    | .interact _ target | .waitFor target | .extract target _ | .fill target _ | .type target _
    | .select target _ | .press target _ | .assertText target _ | .uploadFile target _
    | .pasteImage target _ => [target]
    | .ensureLogin rule => rule.loggedInSelector.toList
    | _ => []
  targets.filterMap fun target =>
    let filled := scope.fill target
    (b.selectors.referenced? filled).map fun l =>
      .debug ("UI Map 引用 " ++ filled ++ " → [" ++
        Text.joinWith ", " (l.candidates.map Text.Quoted.quote) ++ "]")

end Bench

end Rehearsal
