import Rehearsal.Proofs.Anatomy

/-! # What it is to be logged in

A step that makes sure of a login succeeds in two ways. Either the page that it visits answers for the
login, or the login scenario is played to a good end and the page is visited again, which is then taken
for the page of one who is logged in without being asked. A login scenario that fails makes the step fail
as a login.
-/
namespace Rehearsal

variable {σ : Type}

theorem Bench.loginUrlPattern_of_deed {b : Bench} {d : Desk} {scope : Scope} {rule : LoginRule}
    {login : LoginTask} (h : b.deed d scope (.ensureLogin rule) = .ok (.ensureLogin login)) :
    login.loginUrlPattern = rule.loginUrlPattern := by
  have same := Deed.ensureLogin.inj (Except.ok.inj h)
  rw [← same]

namespace Play

section

variable (stage : Stage σ)

/-- In a turn that begins at `x` the step is made ready, and at `z` it begins to make sure of the login. -/
inductive Readied (t : Turn) (rule : LoginRule) (w : Watch) (x : Clock × World σ) (login : LoginTask)
    (z : Clock × World σ × Trace) : Prop
  | mk {old : List NetworkRequest} {a : Clock × World σ}
    (emptied : stage.browser.takeRequests.run w x.1 (stage.opens t.place t.step x.2) = (.done old, a))
    (made : stage.deed a.2.desk a.2.scope (.ensureLogin rule) = .ok (.ensureLogin login))
    (before : stage.GoesTo t.place (a.2, .empty) z.2)

/-- The time that a step may take. -/
def allowed (step : Step) : Nat := step.options.timeout.getD stage.settings.defaultTimeout

/-- A turn that begins at `x` comes to its end as the login is made sure of, with that result. -/
def Secures (runner : Runner σ) (t : Turn) (rule : LoginRule) (w : Watch) (x : Clock × World σ)
    (r : Except Failure Unit) : Prop :=
  ∃ login z y, Readied stage t rule w x login z ∧
    Login.Ensures stage t.place login (allowed stage t.step) { w with cancellable := true } runner
      t.stack z r y

/-- What has become of a turn whose step makes sure of a login. -/
structure Assured (runner : Runner σ) (t : Turn) (rule : LoginRule) (w : Watch) (x : Clock × World σ) :
    Prop where
  succeeded : t.outcome.status = .success → Secures stage runner t rule w x (.ok ())
  failed : t.outcome.status ≠ .success → ∃ e, t.failure = some e ∧ t.outcome.status = .failed ∧
    t.outcome.error = some e.message ∧ (e = .cancelled ∨ Secures stage runner t rule w x (.error e))

end

variable {stage : Stage σ} {runner : Runner σ} {t : Turn} {w : Watch}

theorem assured_of_turn {rule : LoginRule} {x y : Clock × World σ}
    (logs : t.step.instruction = .ensureLogin rule)
    (h : turn stage runner t.place t.stack t.step w x.1 x.2 = (.done (t.outcome, t.failure), y)) :
    Assured stage runner t rule w x := by
  obtain @⟨stem, old, requests, r, millis, a, d, b, b', emptied, attempted, -, -, -, failure, outcome, -⟩ :=
    anatomy_of_turn h
  have secures : r = .error .cancelled ∨ Secures stage runner t rule w x r := by
    obtain ⟨e, -, unmade, -⟩ | ⟨task, z, r', made, -, before, -, hwork, hr⟩ :=
      attempt_cases (x := (a.1, a.2, .empty)) attempted
    · rw [Bench.task, logs] at unmade
      cases unmade
    obtain ⟨deed, hdeed, rfl⟩ := of_map_eq_ok made
    rw [logs] at hdeed
    have same := hdeed
    cases same
    rcases Timed.done_of_untilCancelled hwork with ⟨r'', rfl, done⟩ | ⟨rfl, -⟩
    · rw [Option.getD_some] at hr
      subst hr
      exact .inr ⟨_, z, b, .mk emptied hdeed before, Login.ensures_of_done done⟩
    · exact .inl hr
  have status : t.outcome.status = if t.failure.isSome then .failed else .success := by rw [outcome]; rfl
  have error : t.outcome.error = t.failure.map Failure.message := by rw [outcome]; rfl
  cases r with
  | ok u =>
    rw [failure] at status error
    exact ⟨fun _ => secures.resolve_left (by simp), fun hstatus => absurd status hstatus⟩
  | error e =>
    rw [failure] at status error
    refine ⟨fun hstatus => absurd (status.symm.trans hstatus) (by simp [failureOf]), fun _ => ?_⟩
    exact ⟨e, failure, status, error, secures.imp_left Except.error.inj⟩

end Play

namespace Run

end Run

/-- A browser that shows the page of a login whatever is asked for. -/
def Browser.turnedAway : Browser Unit :=
  { Browser.still with currentUrl := .done (.ok "http://app.test/login") }

def Stage.turnedAway (scenarios : List Scenario) : Stage Unit :=
  { Stage.bare scenarios with browser := .turnedAway }

/-- Nobody is logged in at an address that looks like that of a login page. -/
theorem Login.not_authenticated_turnedAway {scenarios : List Scenario} {login : LoginTask} {timeout : Nat}
    {w : Watch} {x z : Clock × World Unit} (pattern : login.loginUrlPattern = "login") :
    ¬ Authenticated (.turnedAway scenarios) login timeout w x z := by
  intro authenticated
  obtain ⟨asked, elsewhere, -, -⟩ := authenticated
  cases asked
  rw [pattern] at elsewhere
  revert elsewhere
  decide +kernel

namespace Run

open Preflight (nowhere)

def loginRule : LoginRule := ⟨"http://app.test/login", "a", "default", none, "login"⟩

def idling : Scenario := ⟨"a", none, none, none, [.ofInstruction (.wait "0")]⟩

def entering : Scenario := ⟨"r", none, none, none, [.ofInstruction (.ensureLogin loginRule)]⟩

end Run

end Rehearsal
