import Rehearsal.Proofs.Exactness
import Rehearsal.Proofs.FailurePolicy
import Rehearsal.Run.Basic

/-! # Whole runs

A run that nobody watches comes to its end with a record, whatever the browser, the stores and the
scenarios do. The record tells how the playing of the steps ended.
-/
namespace Rehearsal

open Timed (Maintains Whatever)

variable {σ : Type} {stage : Stage σ}

theorem Stage.lasting_true (stage : Stage σ) : stage.Lasting (fun _ _ => True) (fun _ => True) where
  page := fun _ h => h
  say := fun _ h => h
  scope := fun _ h => h
  begun := fun _ h => h
  tell := fun _ h => h
  screenshot := fun _ _ h => h
  session := fun _ _ h => h
  close := fun h _ => h

namespace Play

theorem nested_ends (stage : Stage σ) (fuel : Nat) (id : String) (stack : CallStack) (depth : Nat) :
    Maintains (fun _ => True) (Blames fun _ => True) (nested stage fuel id stack depth) := by
  induction fuel generalizing id stack depth with
  | zero => exact .pure trivial
  | succ fuel ih =>
    refine maintains_enter stage.lasting_true.toStable (fun _ => trivial) (fun _ _ _ _ => trivial)
      trivial ?_
    intro s t _ _
    refine (maintains_stepsFrom stage.lasting_true stage.excuses_true ?_ 0).mono fun _ _ _ _ => trivial
    intro step _ id _
    exact ih id _ _

theorem runner_ends (stage : Stage σ) (id : String) (stack : CallStack) (depth : Nat) :
    Maintains (fun _ => True) (Blames fun _ => True) (runner stage id stack depth) :=
  .bind (R := Whatever) (.read fun _ _ _ => trivial) fun _ _ => nested_ends stage _ id stack depth

theorem stepsFrom_ends (stage : Stage σ) (id : String) (stack : CallStack) (depth index : Nat)
    (steps : List Step) (c : Clock) (s : World σ) :
    ∃ r c' s', stepsFrom stage (runner stage) id stack depth index steps .none c s =
      (.done r, c', s') := by
  have h : Maintains (fun _ => True) Whatever
      (stepsFrom stage (runner stage) id stack depth index steps) :=
    (maintains_stepsFrom stage.lasting_true stage.excuses_true
      (fun _ _ id _ => runner_ends stage id stack depth) index).whatever
  obtain ⟨r, c', s', hrun, -⟩ := h.done c trivial
  exact ⟨r, c', s', hrun⟩

end Play

/-- The worlds differ at most in the browser and the log. -/
structure World.Resembles (s t : World σ) : Prop where
  turns : t.turns = s.turns
  desk : t.desk = s.desk
  events : t.events = s.events
  scope : t.scope = s.scope
  begun : t.begun = s.begun

theorem World.Resembles.refl (s : World σ) : s.Resembles s := ⟨rfl, rfl, rfl, rfl, rfl⟩

theorem undisturbed_resembles (s : World σ) : Undisturbed s.Resembles :=
  ⟨fun _ h => ⟨h.turns, h.desk, h.events, h.scope, h.begun⟩,
    fun _ h => ⟨h.turns, h.desk, h.events, h.scope, h.begun⟩⟩

/-- A call to the browser changes nothing else besides the log. -/
theorem resembles_of_run {α : Type} {call : Call σ α} {w : Watch} {c c' : Clock} {s s' : World σ}
    {e : Exit α} (h : call.run w c s = (e, c', s')) : s.Resembles s' :=
  (maintains_call (undisturbed_resembles s) call).holds (.refl s) h

namespace Run

theorem maintains_finishRecording (stage : Stage σ) (s : World σ) :
    Maintains s.Resembles Whatever (finishRecording stage) := by
  refine .bind (maintains_call (undisturbed_resembles s) _) fun r _ => ?_
  cases r with
  | ok video => exact .pure trivial
  | error fault => exact .bind (maintains_say (undisturbed_resembles s) _) fun _ _ => .pure trivial

theorem called_of_finishRecording {w : Watch} {c c' : Clock} {s s' : World σ} {video : Option String}
    (h : finishRecording stage w c s = (.done video, c', s')) :
    ∃ r s₁, stage.browser.finishRecording.run w c s = (.done r, c', s₁) ∧ s'.page = s₁.page := by
  obtain ⟨r, c₁, s₁, hcall, h⟩ := Timed.done_of_bind h
  cases r with
  | ok video =>
    cases h
    exact ⟨_, _, hcall, rfl⟩
  | error fault =>
    cases h
    exact ⟨_, _, hcall, rfl⟩

theorem finishRecording_done (stage : Stage σ) (c : Clock) (s : World σ) :
    ∃ video c' s', finishRecording stage .none c s = (.done video, c', s') ∧ s.Resembles s' := by
  obtain ⟨video, c', s', hrun, hsame, -⟩ := (maintains_finishRecording stage s).done c (.refl s)
  exact ⟨video, c', s', hrun, hsame⟩

theorem store_apply (record : RunRecord) (w : Watch) (c : Clock) (s : World σ) :
    ∃ s', store stage record w c s = (.done (), c, s') ∧ s'.page = s.page ∧
      ({ s with desk := (stage.sink.storeResult s.desk record).2 } : World σ).Resembles s' := by
  unfold store
  rw [Timed.bind_of_done (Timed.desk_apply ..)]
  generalize stage.sink.storeResult s.desk record = stored
  obtain ⟨answer, desk⟩ := stored
  cases answer with
  | ok place => exact ⟨_, rfl, rfl, .refl _⟩
  | error e => exact ⟨_, rfl, rfl, rfl, rfl, rfl, rfl, rfl⟩

/-- When the recording has ended, the record tells how the run ended, it is stored, and it is told. -/
theorem conclude_of_recorded (scenario : Scenario) (runId : String) (started : Nat) (ending : Ending)
    {w : Watch} {c c₁ : Clock} {s s₁ : World σ} {video : Option String}
    (h : finishRecording stage w c s = (.done video, c₁, s₁)) :
    ∃ record s', conclude stage scenario runId started ending w c s = (.done record, c₁, s') ∧
      record.status = ending.status ∧ record.error = ending.error ∧ record.steps = ending.steps ∧
      s'.page = s₁.page ∧ ({ s₁ with
          desk := (stage.sink.storeResult s₁.desk record).2
          events := s₁.events ++ stage.told [.runCompleted record] } : World σ).Resembles s' := by
  unfold conclude
  rw [Timed.bind_of_done h, Timed.bind_of_done (Timed.now_apply ..)]
  generalize hrecord : (RunRecord.mk runId ending.status scenario.id (some stage.settings.projectId)
    scenario.displayName ending.steps (stage.epoch.later started) (some (stage.epoch.later c₁.now))
    (c₁.now - started) stage.sink.location video ending.error) = record
  obtain ⟨s₂, hstore, page, h₂⟩ := store_apply record w c₁ s₁
  rw [Timed.bind_of_done hstore, Timed.bind_of_done (Timed.say_apply ..),
    Timed.bind_of_done (stage.tell_apply ..)]
  refine ⟨record, _, rfl, by rw [← hrecord], by rw [← hrecord], by rw [← hrecord], ?_, ?_, ?_, ?_, ?_, ?_⟩
  · exact (stage.page_heard ..).trans page
  · exact (stage.turns_heard ..).trans h₂.turns
  · exact (stage.desk_heard ..).trans h₂.desk
  · rw [stage.events_heard]
    exact congrArg (· ++ _) h₂.events
  · exact (stage.scope_heard ..).trans h₂.scope
  · exact (stage.begun_heard ..).trans h₂.begun

theorem conclude_told (stage : Stage σ) (scenario : Scenario) (runId : String) (started : Nat)
    (ending : Ending) (c : Clock) (s : World σ) :
    ∃ record c' s', conclude stage scenario runId started ending .none c s =
        (.done record, c', s') ∧
      record.status = ending.status ∧ record.error = ending.error ∧ record.steps = ending.steps ∧
      s'.turns = s.turns ∧ s'.desk = (stage.sink.storeResult s.desk record).2 ∧
      s'.events = s.events ++ stage.told [.runCompleted record] ∧ s'.scope = s.scope := by
  obtain ⟨video, c₁, s₁, hvideo, h₁⟩ := finishRecording_done stage c s
  obtain ⟨record, s', hrecord, hstatus, herror, hsteps, -, h⟩ :=
    conclude_of_recorded scenario runId started ending hvideo
  refine ⟨record, c₁, s', hrecord, hstatus, herror, hsteps, h.turns.trans h₁.turns, ?_, ?_,
    h.scope.trans h₁.scope⟩
  · rw [h.desk, h₁.desk]
  · rw [h.events, h₁.events]

theorem conclude_done (stage : Stage σ) (scenario : Scenario) (runId : String) (started : Nat)
    (ending : Ending) (c : Clock) (s : World σ) :
    ∃ record c' s', conclude stage scenario runId started ending .none c s =
        (.done record, c', s') ∧
      record.status = ending.status ∧ record.error = ending.error ∧ record.steps = ending.steps ∧
      s'.turns = s.turns ∧ s'.desk = (stage.sink.storeResult s.desk record).2 := by
  obtain ⟨record, c', s', hrun, hstatus, herror, hsteps, hturns, hdesk, -⟩ :=
    conclude_told stage scenario runId started ending c s
  exact ⟨record, c', s', hrun, hstatus, herror, hsteps, hturns, hdesk⟩

/-- Where a run begins: its start has been told. -/
def opened (stage : Stage σ) (scenario : Scenario) (runId : String) (s : World σ) : World σ :=
  stage.heard (.runStarted runId scenario.id scenario.steps.length)
    (s.say (Narration.runStart runId scenario))

theorem run_eq (stage : Stage σ) (scenario : Scenario) (runId : String) (w : Watch) (c : Clock)
    (s : World σ) : run stage scenario runId w c s =
      (perform stage scenario >>= conclude stage scenario runId c.now) w c
        (opened stage scenario runId s) := by
  unfold run
  rw [Timed.bind_of_done (Timed.now_apply ..), Timed.bind_of_done (Timed.say_apply ..),
    Timed.bind_of_done (stage.tell_apply ..)]
  rfl

@[simp] theorem page_opened (scenario : Scenario) (runId : String) (s : World σ) :
    (opened stage scenario runId s).page = s.page := stage.page_heard ..

@[simp] theorem desk_opened (scenario : Scenario) (runId : String) (s : World σ) :
    (opened stage scenario runId s).desk = s.desk := stage.desk_heard ..

@[simp] theorem turns_opened (scenario : Scenario) (runId : String) (s : World σ) :
    (opened stage scenario runId s).turns = s.turns := stage.turns_heard ..

@[simp] theorem scope_opened (scenario : Scenario) (runId : String) (s : World σ) :
    (opened stage scenario runId s).scope = s.scope := stage.scope_heard ..

@[simp] theorem begun_opened (scenario : Scenario) (runId : String) (s : World σ) :
    (opened stage scenario runId s).begun = s.begun := stage.begun_heard ..

theorem perform_of_error {scenario : Scenario} {s : World σ} {e : Failure}
    (h : (Preflight.check stage.scenarios s.desk scenario).1 = .error e) (w : Watch) (c : Clock) :
    perform stage scenario w c s = (.done (.refused scenario e), c,
      (s.say (Preflight.check stage.scenarios s.desk scenario).2).say
        [.error ("❌ 预检失败: " ++ e.message)]) := by
  unfold perform
  rw [Timed.bind_of_done (Timed.desk_apply ..)]
  generalize Preflight.check stage.scenarios s.desk scenario = found at h ⊢
  obtain ⟨verdict, lines⟩ := found
  cases h
  rfl

/-- Where the playing of steps begins: the lines of the rehearsal are said, and no variable is set. -/
def onset (stage : Stage σ) (scenario : Scenario) (s : World σ) : World σ :=
  { s.say (Preflight.check stage.scenarios s.desk scenario).2 with scope := .empty }

@[simp] theorem desk_onset (scenario : Scenario) (s : World σ) :
    (onset stage scenario s).desk = s.desk := rfl

@[simp] theorem turns_onset (scenario : Scenario) (s : World σ) :
    (onset stage scenario s).turns = s.turns := rfl

theorem perform_of_ok {scenario : Scenario} {s : World σ}
    (h : (Preflight.check stage.scenarios s.desk scenario).1 = .ok ()) (w : Watch) (c : Clock) :
    perform stage scenario w c s =
      (Play.stepsFrom stage (Play.runner stage) scenario.id (.root scenario.id) 0 0 scenario.steps >>=
        fun report => pure (.ofReport report)) w c (onset stage scenario s) := by
  unfold perform onset
  rw [Timed.bind_of_done (Timed.desk_apply ..)]
  generalize Preflight.check stage.scenarios s.desk scenario = found at h ⊢
  obtain ⟨verdict, lines⟩ := found
  cases h
  rfl

theorem run_of_error {scenario : Scenario} {s : World σ} {e : Failure}
    (h : (Preflight.check stage.scenarios s.desk scenario).1 = .error e) (runId : String) (w : Watch)
    (c : Clock) :
    run stage scenario runId w c s = conclude stage scenario runId c.now (.refused scenario e) w c
      (((opened stage scenario runId s).say (Preflight.check stage.scenarios s.desk scenario).2).say
        [.error ("❌ 预检失败: " ++ e.message)]) := by
  have h' : (Preflight.check stage.scenarios (opened stage scenario runId s).desk scenario).1 =
      .error e := by
    rw [desk_opened]
    exact h
  rw [run_eq, Timed.bind_of_done (perform_of_error h' w c), desk_opened]

theorem run_of_ok {scenario : Scenario} {s : World σ}
    (h : (Preflight.check stage.scenarios s.desk scenario).1 = .ok ()) (runId : String) {c c' : Clock}
    {s' : World σ} {report : Report}
    (hsteps : Play.stepsFrom stage (Play.runner stage) scenario.id (.root scenario.id) 0 0
      scenario.steps .none c (onset stage scenario (opened stage scenario runId s)) =
        (.done report, c', s')) :
    run stage scenario runId .none c s =
      conclude stage scenario runId c.now (.ofReport report) .none c' s' := by
  have h' : (Preflight.check stage.scenarios (opened stage scenario runId s).desk scenario).1 =
      .ok () := by
    rw [desk_opened]
    exact h
  rw [run_eq, Timed.bind_apply, perform_of_ok h', Timed.bind_of_done hsteps]
  rfl

/-- What a record says of a run whose steps were played. A fatal failure goes before being cancelled,
and this before any other failure. -/
structure Judged (steps : List Step) (played : List Turn) (record : RunRecord) : Prop where
  fatal : ∀ e, Play.FatalEnd played e →
    record.status = .failed ∧ record.error = some e.message
  cancelled : (∀ e, ¬ Play.FatalEnd played e) → Play.CancelledEnd steps played →
    record.status = .cancelled ∧ record.error = some Failure.cancelled.message
  otherwise : (∀ e, ¬ Play.FatalEnd played e) → ¬ Play.CancelledEnd steps played →
    record.error = none ∧ (record.status = .failed ∨ record.status = .completed) ∧
      (record.status = .failed ↔
        ∃ (i : Nat) (o : Outcome) (s : Step), record.steps[i]? = some o ∧ o.isFailed = true ∧
          steps[i]? = some s ∧ s.options.optional = false)

theorem judged_of_played {runner : Runner σ} {id : String} {stack : CallStack} {depth : Nat}
    {w : Watch} {index : Nat} {steps : List Step} {x y : Clock × World σ} {played : List Turn}
    {r : Report} (h : Play.Played stage runner id stack depth w index steps x played r y)
    {record : RunRecord} (hstatus : record.status = (Ending.ofReport r).status)
    (herror : record.error = (Ending.ofReport r).error)
    (hsteps : record.steps = (Ending.ofReport r).steps) : Judged steps played record where
  fatal := by
    intro e he
    have hfatal := (h.fatal_iff e).mpr he
    rw [hstatus, herror]
    simp [Ending.ofReport, Report.status, hfatal]
  cancelled := by
    intro hno hend
    have hfatal := h.not_fatal hno
    have hcancelled := h.cancelled_iff.mpr hend
    rw [hstatus, herror]
    simp [Ending.ofReport, Report.status, hfatal, hcancelled]
  otherwise := by
    intro hno hend
    have hfatal := h.not_fatal hno
    have hcancelled : r.cancelled = false := by
      cases hc : r.cancelled with
      | false => rfl
      | true => exact absurd (h.cancelled_iff.mp hc) hend
    have hfailed := (h.failed_iff hfatal hcancelled).trans h.policy.exists_failed_iff
    have hs : record.steps = r.outcomes := hsteps
    have hstatus' : record.status = if r.failed then .failed else .completed := by
      rw [hstatus]
      simp [Ending.ofReport, Report.status, hfatal, hcancelled]
    refine ⟨?_, ?_, ?_⟩
    · rw [herror]
      simp [Ending.ofReport, hfatal, hcancelled]
    · rw [hstatus']
      cases r.failed with
      | true => exact .inl rfl
      | false => exact .inr rfl
    · rw [hstatus', hs, ← hfailed]
      cases r.failed with
      | true => simp
      | false => simp

/-- The playing of steps follows their options, at any depth and whatever the browser does. A run whose
references are in order comes to its end, and its record tells how. -/
theorem failure_policy (stage : Stage σ) :
    (∀ runner id stack depth index steps w c s r c' s',
      Play.stepsFrom stage runner id stack depth index steps w c s = (.done r, c', s') →
      ∃ played,
        Play.turns stage runner id stack depth index (steps.take played.length) w c s =
          (.done played, c', s') ∧
        Play.Policy index steps played r c') ∧
    (∀ scenario runId c s, (Preflight.check stage.scenarios s.desk scenario).1 = .ok () →
      ∃ s₀ played r c₁ s₁ record c' s',
        s₀.desk = s.desk ∧ s₀.scope = .empty ∧
        Play.turns stage (Play.runner stage) scenario.id (.root scenario.id) 0 0
          (scenario.steps.take played.length) .none c s₀ = (.done played, c₁, s₁) ∧
        Play.Policy 0 scenario.steps played r c₁ ∧
        (run stage scenario runId).run c s = (some record, c', s') ∧
        record.steps = r.outcomes ∧ Judged scenario.steps played record) := by
  constructor
  · intro runner id stack depth index steps w c s r c' s' h
    obtain ⟨played, hplayed⟩ := Play.played_of_done h
    exact ⟨played, hplayed.turns, hplayed.policy⟩
  · intro scenario runId c s hok
    obtain ⟨r, c₁, s₁, hsteps⟩ := Play.stepsFrom_ends stage scenario.id (.root scenario.id) 0 0
      scenario.steps c (onset stage scenario (opened stage scenario runId s))
    obtain ⟨played, hplayed⟩ := Play.played_of_done hsteps
    obtain ⟨record, c', s', hrecord, hstatus, herror, houtcomes, -⟩ :=
      conclude_done stage scenario runId c.now (.ofReport r) c₁ s₁
    refine ⟨onset stage scenario (opened stage scenario runId s), played, r, c₁, s₁, record, c', s',
      ?_, rfl, hplayed.turns, hplayed.policy, ?_, houtcomes,
      judged_of_played hplayed hstatus herror houtcomes⟩
    · rw [desk_onset, desk_opened]
    · rw [Timed.run, run_of_ok hok runId hsteps, hrecord]

end Run

/-- A browser in which nothing is found and nothing happens. -/
def Browser.still : Browser Unit where
  goto _ := .done (.ok ())
  currentUrl := .done (.ok "")
  probe _ := .done (.ok .missing)
  perform selector _ := .done (.error (.noSuchElement selector))
  evaluate _ := .done (.ok .null)
  screenshot _ := .done (.ok [])
  snapshot := .done (.ok .empty)
  restore _ := .done (.ok ())
  takeRequests := .done []
  finishRecording := .done (.ok none)
  close := .done (.ok ())

/-- A stage on which everything is kept in memory. -/
def Stage.bare (scenarios : List Scenario) : Stage Unit where
  settings := .default
  selectors := ⟨.empty, none⟩
  resources := .fixed []
  browser := .still
  scenarios := .memory scenarios
  sessions := .memory
  sink := .memory
  listening := false
  epoch := ⟨0, 0⟩

def Clock.start : Clock := ⟨0, false, none⟩

namespace Run

open Preflight (nowhere referring)

theorem failure_policy_missing :
    ∃ played record c s,
      (run (.bare []) (referring "r" ["gone", "a"]) "1").run .start (.ofPage () nowhere) =
        (some record, c, s) ∧
      record.status = .failed ∧ record.steps.map (·.status) = [.failed, .skipped] ∧
      Judged (referring "r" ["gone", "a"]).steps played record := by
  obtain ⟨-, played, -, -, -, record, c, s, -, -, -, -, hrun, -, hjudged⟩ :=
    (failure_policy (.bare [])).2 (referring "r" ["gone", "a"]) "1" .start (.ofPage () nowhere) rfl
  have hstatus : ((run (.bare []) (referring "r" ["gone", "a"]) "1").run .start
      (.ofPage () nowhere)).1.map (fun r => (r.status, r.steps.map (·.status))) =
        some (.failed, [.failed, .skipped]) := by decide +kernel
  rw [hrun, Option.map_some, Option.some.injEq, Prod.mk.injEq] at hstatus
  exact ⟨played, record, c, s, hrun, hstatus.1, hstatus.2, hjudged⟩

end Run

end Rehearsal
