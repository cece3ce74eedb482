import Rehearsal.Task.OfStep

/-! # Steps made ready

A deed has the same scenario played as the instruction that it is made from. An instruction that no deed
can be made from lacks a resource, or waits for no number.
-/
namespace Rehearsal

/-- The scenario that a deed has played. -/
def Deed.reference? : Deed → Option String
  | .runScenario id => some id
  | .ensureLogin login => some login.loginScenario
  | _ => none

theorem map_eq_ok_iff {ε α β : Type} {r : Except ε α} {f : α → β} {b : β} :
    r.map f = .ok b ↔ ∃ a, r = .ok a ∧ f a = b := by
  cases r <;> simp [Except.map]

theorem of_map_eq_ok {ε α β : Type} {r : Except ε α} {f : α → β} {b : β}
    (h : r.map f = .ok b) : ∃ a, r = .ok a ∧ f a = b := map_eq_ok_iff.mp h

theorem of_map_eq_error {ε α β : Type} {r : Except ε α} {f : α → β} {e : ε}
    (h : r.map f = .error e) : r = .error e := by
  cases r with
  | error e' => exact congrArg _ (Except.error.inj h)
  | ok a => cases h

namespace Bench

variable {b : Bench} {d : Desk} {scope : Scope}

/-- What kind of deed an instruction makes: one that reads into a variable, one that has a scenario
played, or neither. -/
inductive Makes (b : Bench) (scope : Scope) : Instruction → Deed → Prop
  | reads (target saveAs : String) :
    Makes b scope (.extract target saveAs) (.extract (b.selectors.resolve (scope.fill target)) saveAs)
  | plays (id : String) : Makes b scope (.runScenario id) (.runScenario id)
  | logsIn {rule : LoginRule} {login : LoginTask} (same : login.loginScenario = rule.loginScenario) :
    Makes b scope (.ensureLogin rule) (.ensureLogin login)
  | neither {instruction : Instruction} {deed : Deed} (plays : deed.reference? = none)
    (refers : instruction.reference? = none)
    (reads : ∀ candidates saveAs, deed ≠ .extract candidates saveAs)
    (unread : ∀ target saveAs, instruction ≠ .extract target saveAs) : Makes b scope instruction deed

theorem makes_of_deed {instruction : Instruction} {deed : Deed}
    (h : b.deed d scope instruction = .ok deed) : Makes b scope instruction deed := by
  unfold Bench.deed at h
  cases instruction with
  | wait value =>
    simp only at h
    split at h
    · cases h
      exact .neither rfl rfl (by simp) (by simp)
    · cases h
  | uploadFile target path =>
    obtain ⟨p, -, rfl⟩ := of_map_eq_ok h
    exact .neither rfl rfl (by simp) (by simp)
  | pasteImage target path =>
    obtain ⟨p, -, rfl⟩ := of_map_eq_ok h
    exact .neither rfl rfl (by simp) (by simp)
  | extract target saveAs =>
    cases h
    exact .reads target saveAs
  | runScenario id =>
    cases h
    exact .plays id
  | ensureLogin rule =>
    cases h
    exact .logsIn rfl
  | _ =>
    cases h
    exact .neither rfl rfl (by simp) (by simp)

theorem reference?_of_deed {instruction : Instruction} {deed : Deed}
    (h : b.deed d scope instruction = .ok deed) : deed.reference? = instruction.reference? := by
  cases makes_of_deed h with
  | reads target saveAs => rfl
  | plays id => rfl
  | logsIn same => exact congrArg some same
  | neither plays refers reads unread => exact plays.trans refers.symm

theorem reference?_of_task {step : Step} {task : Task} (h : b.task d scope step = .ok task) :
    task.deed.reference? = step.instruction.reference? := by
  obtain ⟨deed, hdeed, rfl⟩ := of_map_eq_ok h
  exact reference?_of_deed hdeed

theorem makes_of_task {step : Step} {task : Task} (h : b.task d scope step = .ok task) :
    Makes b scope step.instruction task.deed ∧
      task.timeout = step.options.timeout.getD b.settings.defaultTimeout := by
  obtain ⟨deed, hdeed, rfl⟩ := of_map_eq_ok h
  exact ⟨makes_of_deed hdeed, rfl⟩

/-- Nothing is filled in where a scenario is to be played. -/
theorem unset_of_runScenario {step : Step} {task : Task} {id : String} (h : b.task d scope step = .ok task)
    (instruction : step.instruction = .runScenario id) : task.unset = [] := by
  obtain ⟨deed, -, rfl⟩ := of_map_eq_ok h
  simp [instruction, templates, distinct]

theorem filePath_error {path : String} {e : Failure} (h : b.filePath d scope path = .error e) :
    ∃ id, b.resources.resolve d b.settings.projectId id = .error e := by
  unfold Bench.filePath at h
  split at h
  · exact ⟨_, h⟩
  · cases h

theorem deed_error {instruction : Instruction} {e : Failure}
    (h : b.deed d scope instruction = .error e) :
    (∃ id, b.resources.resolve d b.settings.projectId id = .error e) ∨
      ∃ value fault, instruction = .wait value ∧
        StepDocument.waitMillis (scope.fill value) = .error fault ∧ e = .document fault := by
  unfold Bench.deed at h
  cases instruction with
  | wait value =>
    simp only at h
    split at h
    · cases h
    · rename_i fault hfault
      cases h
      exact .inr ⟨value, fault, rfl, hfault, rfl⟩
  | uploadFile target path => exact .inl (filePath_error (of_map_eq_error h))
  | pasteImage target path => exact .inl (filePath_error (of_map_eq_error h))
  | _ => cases h

theorem task_error {step : Step} {e : Failure} (h : b.task d scope step = .error e) :
    (∃ id, b.resources.resolve d b.settings.projectId id = .error e) ∨
      ∃ value fault, step.instruction = .wait value ∧
        StepDocument.waitMillis (scope.fill value) = .error fault ∧ e = .document fault :=
  deed_error (of_map_eq_error h)

end Bench

end Rehearsal
