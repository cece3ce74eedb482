import Rehearsal.Proofs.Readiness
import Rehearsal.Run.Basic

/-! # Runs with another store

A run asks its store of sessions for keys of its own project, under the names that its steps give. With
any other store that answers alike for these keys it is the same run.
-/
namespace Rehearsal

/-- The name of the saved session that an instruction is about. -/
def Instruction.stateName? : Instruction → Option String
  | saveSession name | loadSession name => some name
  | ensureLogin rule => some rule.stateName
  | _ => none

/-- The name of the saved session that a deed is about. -/
def Deed.stateName? : Deed → Option String
  | .saveSession name | .loadSession name => some name
  | .ensureLogin login => some login.stateName
  | _ => none

namespace Bench

variable {b : Bench} {d : Desk} {scope : Scope}

/-- Names of saved sessions are taken as they are written. -/
theorem stateName?_of_deed {instruction : Instruction} {deed : Deed}
    (h : b.deed d scope instruction = .ok deed) : deed.stateName? = instruction.stateName? := by
  unfold Bench.deed at h
  cases instruction with
  | wait value =>
    simp only at h
    split at h <;> cases h
    rfl
  | uploadFile target path | pasteImage target path =>
    obtain ⟨p, -, rfl⟩ := of_map_eq_ok h
    rfl
  | _ =>
    cases h
    rfl

theorem stateName?_of_task {step : Step} {task : Task} (h : b.task d scope step = .ok task) :
    task.deed.stateName? = step.instruction.stateName? := by
  obtain ⟨deed, hdeed, rfl⟩ := of_map_eq_ok h
  exact stateName?_of_deed hdeed

end Bench

variable {σ : Type}

/-- For the keys that are asked for the store does as the other one. -/
structure SessionStore.SameOn (asked : Session.Key → Prop) (store other : SessionStore) : Prop where
  get : ∀ {key}, asked key → ∀ d, store.get d key = other.get d key
  put : ∀ {key}, asked key → ∀ d s, store.put d key s = other.put d key s

theorem SessionStore.SameOn.mono {asked asked' : Session.Key → Prop} {store other : SessionStore}
    (h : store.SameOn asked other) (hle : ∀ key, asked' key → asked key) : store.SameOn asked' other :=
  ⟨fun hkey => h.get (hle _ hkey), fun hkey => h.put (hle _ hkey)⟩

namespace Stage

def withSessions (stage : Stage σ) (store : SessionStore) : Stage σ := { stage with sessions := store }

/-- The keys of the project under a name in `P`. -/
def Asks (stage : Stage σ) (P : String → Prop) (key : Session.Key) : Prop :=
  key.project = stage.settings.projectId ∧ P key.state

end Stage

/-- Every saved session that the steps are about has a name in `P`. -/
def Step.Naming (P : String → Prop) (steps : List Step) : Prop :=
  ∀ step ∈ steps, ∀ name, step.instruction.stateName? = some name → P name

section

variable {stage : Stage σ} {P : String → Prop} {store : SessionStore}
  (same : store.SameOn (stage.Asks P) stage.sessions) {runner : Runner σ} {place : Place} {stack : CallStack}

include same

theorem Login.save_withSessions {name : String} (hname : P name) :
    save (stage.withSessions store) place name = save stage place name := by
  have hput : ∀ d s, (stage.withSessions store).sessions.put d (key (stage.withSessions store) name) s =
      stage.sessions.put d (key stage name) s := same.put ⟨rfl, hname⟩
  unfold save
  simp only [hput]
  rfl

theorem Login.load_withSessions {name : String} (hname : P name) :
    load (stage.withSessions store) place name = load stage place name := by
  have hget : ∀ d, (stage.withSessions store).sessions.get d (key (stage.withSessions store) name) =
      stage.sessions.get d (key stage name) := same.get ⟨rfl, hname⟩
  unfold load
  simp only [hget]
  rfl

theorem Login.ensure_withSessions {login : LoginTask} (hname : P login.stateName) (timeout : Nat) :
    ensure (stage.withSessions store) runner place stack login timeout =
      ensure stage runner place stack login timeout := by
  unfold ensure
  rw [Login.load_withSessions same hname, Login.save_withSessions same hname]
  rfl

theorem Perform.deed_withSessions {deed : Deed} (hname : ∀ name, deed.stateName? = some name → P name)
    (stem : String) (timeout : Nat) :
    Perform.deed (stage.withSessions store) runner place stack stem timeout deed =
      Perform.deed stage runner place stack stem timeout deed := by
  cases deed with
  | saveSession name => exact Login.save_withSessions same (hname name rfl)
  | loadSession name =>
    simp only [Perform.deed, Login.load_withSessions same (hname name rfl)]
  | ensureLogin login => exact Login.ensure_withSessions same (hname _ rfl) timeout
  | _ => rfl

theorem Play.attempt_withSessions {step : Step}
    (hname : ∀ name, step.instruction.stateName? = some name → P name) (stem : String) :
    attempt (stage.withSessions store) runner place stack stem step =
      attempt stage runner place stack stem step := by
  refine bind_congr fun desk => bind_congr fun scope => bind_congr fun _ => ?_
  -- A step is made ready without the store, so the same task is there to be done.
  have hsame : (stage.withSessions store).task desk scope step = stage.task desk scope step := rfl
  rw [hsame]
  cases htask : stage.task desk scope step with
  | error e => rfl
  | ok task =>
    have hdeed : ∀ name, task.deed.stateName? = some name → P name := by
      rw [Bench.stateName?_of_task htask]
      exact hname
    simp only [Perform.deed_withSessions same hdeed]
    rfl

theorem Play.turn_withSessions {step : Step}
    (hname : ∀ name, step.instruction.stateName? = some name → P name) :
    turn (stage.withSessions store) runner place stack step = turn stage runner place stack step := by
  unfold turn Play.step
  simp only [Play.attempt_withSessions same hname]
  rfl

theorem Play.stepsFrom_withSessions {steps : List Step} (hsteps : Step.Naming P steps) (id : String)
    (depth index : Nat) :
    stepsFrom (stage.withSessions store) runner id stack depth index steps =
      stepsFrom stage runner id stack depth index steps := by
  induction steps generalizing index with
  | nil => rfl
  | cons step rest ih =>
    have hrest : Step.Naming P rest := fun s hs => hsteps s (List.mem_cons_of_mem _ hs)
    unfold stepsFrom
    simp only [Play.turn_withSessions same (hsteps step (List.mem_cons_self ..)), ih hrest]

variable (loads : ∀ {d : Desk} {id : String} {s : Scenario},
  (stage.scenarios.load d id).1 = .ok (some s) → Step.Naming P s.steps)

include loads

theorem Play.enter_withSessions : enter (stage.withSessions store) runner = enter stage runner := by
  funext id stack depth
  unfold enter
  by_cases hstack : stack.contains id = true
  · simp only [hstack, ↓reduceIte]
  · simp only [hstack, Bool.false_eq_true, ↓reduceIte]
    refine bind_congr fun desk => bind_congr fun _ => ?_
    have hsame : (stage.withSessions store).scenarios = stage.scenarios := rfl
    rw [hsame]
    cases hload : (stage.scenarios.load desk id).1 with
    | error e => rfl
    | ok found =>
      cases found with
      | none => rfl
      | some s => simp only [Play.stepsFrom_withSessions same (loads hload)]

theorem Play.nested_withSessions (fuel : Nat) :
    nested (stage.withSessions store) fuel = nested stage fuel := by
  induction fuel with
  | zero => rfl
  | succ fuel ih =>
    -- The runner for the scenarios inside is the same already, so only the steps of this one ask.
    unfold nested
    rw [ih, Play.enter_withSessions same loads]

theorem Play.runner_withSessions : Play.runner (stage.withSessions store) = Play.runner stage := by
  funext id stack depth
  unfold Play.runner
  simp only [Play.nested_withSessions same loads]
  rfl

theorem Run.run_withSessions {scenario : Scenario} (hsteps : Step.Naming P scenario.steps)
    (runId : String) :
    run (stage.withSessions store) scenario runId = run stage scenario runId := by
  unfold run perform
  simp only [Play.runner_withSessions same loads, Play.stepsFrom_withSessions same hsteps]
  rfl

end

end Rehearsal
