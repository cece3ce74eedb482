import Rehearsal.Proofs.Course
import Rehearsal.Proofs.WholeRun

/-! # The course of a run

What the turn of a step comes to, the turns of a scenario one after another, and a scenario that is
entered. Every runner is made of such scenarios, so what they all do whenever their own runner does it
is done by every runner.
-/
namespace Rehearsal

open Timed (Maintains Whatever)

variable {σ : Type}

/-- The world with one more step begun. -/
def World.counted (s : World σ) : World σ := { s with begun := s.begun + 1 }

/-- The world when the turn of a step begins: it is told of, and counted. -/
def Stage.opens (stage : Stage σ) (place : Place) (step : Step) (s : World σ) : World σ :=
  (stage.heard (.stepStarted place.scenario place.depth place.index step.action step.name)
    (s.say [Narration.stepStart place step])).counted

/-- The world when a turn is over. -/
def Stage.closes (stage : Stage σ) (t : Turn) (s : World σ) : World σ :=
  (stage.heard (.stepEnded t.place.scenario t.place.depth t.outcome)
    (s.say [Narration.stepEnd t.place t.outcome])).close t

section

variable (stage : Stage σ) (place : Place) (step : Step) (t : Turn) (s : World σ)

theorem Stage.events_opens : (stage.opens place step s).events = s.events ++
    stage.told [.stepStarted place.scenario place.depth place.index step.action step.name] :=
  stage.events_heard _ _

@[simp] theorem Stage.page_opens : (stage.opens place step s).page = s.page := stage.page_heard _ _

@[simp] theorem Stage.turns_opens : (stage.opens place step s).turns = s.turns := stage.turns_heard _ _

@[simp] theorem Stage.desk_opens : (stage.opens place step s).desk = s.desk := stage.desk_heard _ _

@[simp] theorem Stage.scope_opens : (stage.opens place step s).scope = s.scope := stage.scope_heard _ _

@[simp] theorem Stage.begun_opens : (stage.opens place step s).begun = s.begun + 1 :=
  congrArg (· + 1) (stage.begun_heard _ _)

theorem Stage.events_closes : (stage.closes t s).events = s.events ++
    stage.told [.stepEnded t.place.scenario t.place.depth t.outcome] :=
  stage.events_heard _ _

@[simp] theorem Stage.page_closes : (stage.closes t s).page = s.page := stage.page_heard _ _

theorem Stage.turns_closes : (stage.closes t s).turns = s.turns ++ [t] :=
  congrArg (· ++ [t]) (stage.turns_heard _ _)

@[simp] theorem Stage.desk_closes : (stage.closes t s).desk = s.desk := stage.desk_heard _ _

@[simp] theorem Stage.scope_closes : (stage.closes t s).scope = s.scope := stage.scope_heard _ _

@[simp] theorem Stage.begun_closes : (stage.closes t s).begun = s.begun := stage.begun_heard _ _

end

/-- The failure of a try that failed. -/
def failureOf : Except Failure Unit → Option Failure
  | .ok _ => none
  | .error e => some e

/-- What a step with this trace came to. -/
def Trace.outcome (trace : Trace) (place : Place) (step : Step) (failure : Option Failure)
    (millis : Nat) (requests : List NetworkRequest) : Outcome where
  index := place.index
  action := step.action
  name := step.name
  status := if failure.isSome then .failed else .success
  selector := trace.selector
  error := failure.map Failure.message
  durationMs := millis
  screenshot := trace.screenshot
  requests
  logs := trace.logs
  children := trace.children

theorem Trace.status_outcome_ne (trace : Trace) (place : Place) (step : Step) (failure : Option Failure)
    (millis : Nat) (requests : List NetworkRequest) :
    (trace.outcome place step failure millis requests).status ≠ .skipped := by
  simp only [Trace.outcome]
  split
  · simp
  · simp

namespace Play

/-- A turn that was over came to what its step came to by itself, by what it read or by the scenario it
had played. -/
inductive Ends (stage : Stage σ) (runner : Runner σ) (w : Watch) (s : World σ) (t : Turn) :
    World σ → Prop
  | mk {r : Except Failure Unit} {trace : Trace} {s' : World σ} {millis : Nat}
    {requests : List NetworkRequest}
    (attempted : Attempted stage runner t.place t.stack t.step (stage.opens t.place t.step s, .empty) w
      r (s', trace))
    (failure : t.failure = failureOf r)
    (outcome : t.outcome = trace.outcome t.place t.step t.failure millis requests) :
    Ends stage runner w s t (stage.closes t s')

/-- A turn was given up on its way. -/
def Breaks (stage : Stage σ) (runner : Runner σ) (place : Place) (stack : CallStack) (step : Step)
    (w : Watch) (s s' : World σ) : Prop :=
  ∃ c c' e, turn stage runner place stack step w c s = (e, c', s') ∧ ∀ a, e ≠ .done a

variable {stage : Stage σ} {runner : Runner σ} {place : Place} {stack : CallStack} {step : Step}
  {w : Watch}

/-- What follows an attempt are moves of the step's own. -/
theorem brings_step (s : World σ) :
    Timed.Brings w (· = s)
      (fun a s' => ∃ r trace millis requests,
        Attempted stage runner place stack step (s.counted, .empty) w r (s', trace) ∧
        a = (trace.outcome place step (failureOf r) millis requests, failureOf r))
      (fun s' => ∃ trace r, Course stage runner place stack step (s.counted, .empty) r (s', trace))
      (Play.step stage runner place stack step) := by
  rintro c s rfl
  unfold Play.step
  rw [Timed.bind_of_done (Timed.now_apply ..), Timed.bind_of_done (Timed.begin_apply ..)]
  generalize stem (s.begun + 1) step.action = stem
  rw [show ({ s with begun := s.begun + 1 } : World σ) = s.counted from rfl]
  generalize s.counted = b
  have calls := maintains_call ((stage.firm_movesTo place (b, .empty)).undisturbed .empty)
    stage.browser.takeRequests
  refine Timed.Brings.alongBind calls (fun s' moves => ⟨_, none, .own moves (by simp)⟩)
    (fun _ => ?_) c _ .refl
  refine .bind (.withOwn (Q := fun a y => ∃ r,
    Attempted stage runner place stack step (b, .empty) w r y ∧ a.1 = failureOf r)
    (E := fun y => ∃ r, Course stage runner place stack step (b, .empty) r y) ?_) fun a => ?_
  · refine .bind (R := Attempted stage runner place stack step (b, .empty) w) ?_ fun r => ?_
    · rintro c ⟨s, t⟩ ⟨moves, rfl⟩
      generalize h : attempt stage runner place stack stem step w c (s, .empty) = res
      have left := (brings_attempt stem).left rfl h
      rcases res with ⟨r | _ | _, c', y⟩
      · exact ⟨stem, c, c', _, _, moves, h, .refl⟩
      · exact ⟨none, left.since moves⟩
      · exact ⟨none, left.since moves⟩
    have firm : stage.Firm place (Attempted stage runner place stack step (b, .empty) w r) :=
      firm_attempted r
    have ended : ∀ y, Attempted stage runner place stack step (b, .empty) w r y →
        ∃ r, Course stage runner place stack step (b, .empty) r y := fun _ h => h.tried.ended
    refine .alongBind (maintains_captureAfter firm.endures firm.shown step.action stem r) ended fun _ => ?_
    have taking := Timed.Maintains.onFirst fun t =>
      maintains_call (firm.undisturbed t) stage.browser.takeRequests
    refine .alongBind taking ended fun requests => ?_
    cases r with
    | ok u => exact .pure fun y attempted => ⟨_, attempted, rfl⟩
    | error e =>
      refine .alongBind (maintains_note firm.endures _) ended fun _ => ?_
      exact .pure fun y attempted => ⟨_, attempted, rfl⟩
  · rintro c' s' ⟨r, attempted, hr⟩
    refine ⟨r, a.2, c'.now - c.now, a.1.2, attempted, ?_⟩
    rw [← hr]
    rfl

theorem brings_turn (s : World σ) :
    Timed.Brings w (· = s) (fun a => Ends stage runner w s ⟨place, stack, step, a.1, a.2⟩)
      (fun s' => ∃ trace r,
        Course stage runner place stack step (stage.opens place step s, .empty) r (s', trace))
      (turn stage runner place stack step) := by
  rintro c s rfl
  unfold turn
  rw [Timed.bind_of_done (Timed.say_apply ..), Timed.bind_of_done (stage.tell_apply ..)]
  refine Timed.Brings.bind (I := (· = stage.heard _ _)) (brings_step _) (fun a => ?_) c _ rfl
  rintro c' s' ⟨r, trace, millis, requests, attempted, rfl⟩
  simp only
  rw [Timed.bind_of_done (Timed.say_apply ..), Timed.bind_of_done (stage.tell_apply ..)]
  exact .mk (t := ⟨place, stack, step, _, _⟩) attempted rfl rfl

theorem Turned.ends {id : String} {depth index : Nat} {t : Turn} {x y : Clock × World σ}
    (h : Turned stage runner id stack depth w index step x t y) : Ends stage runner w x.2 t y.2 := by
  obtain ⟨place, stack', step', outcome, failure⟩ := t
  obtain ⟨c', s'⟩ := y
  obtain ⟨rfl, rfl, rfl, h⟩ := h
  exact (brings_turn x.2).left rfl h

theorem Breaks.course {s s' : World σ} (h : Breaks stage runner place stack step w s s') :
    ∃ trace r,
      Course stage runner place stack step (stage.opens place step s, .empty) r (s', trace) := by
  obtain ⟨c, c', e, h, left⟩ := h
  have course := (brings_turn s).left rfl h
  cases e with
  | done a => exact absurd rfl (left a)
  | cancelled => exact course
  | expired => exact course

section

variable (stage : Stage σ) (runner : Runner σ) (id : String) (stack : CallStack) (depth : Nat)
  (w : Watch)

/-- Turns of one scenario after another, the first of them at number `index`. -/
inductive Row : Nat → World σ → List Turn → World σ → Prop
  | none {index : Nat} {s : World σ} : Row index s [] s
  | next {index : Nat} {c c' : Clock} {s s' s'' : World σ} {step : Step} {t : Turn}
    {played : List Turn} (turned : Turned stage runner id stack depth w index step (c, s) t (c', s'))
    (later : Row (index + 1) s' played s'') : Row index s (t :: played) s''

/-- The playing of steps was given up in the turn of one of them. -/
structure Parted (index : Nat) (steps : List Step) (s : World σ) (played : List Turn) (s' : World σ) :
    Prop where
  goesOn : ∀ t ∈ played, ¬ t.Halts
  breaks : ∃ step s₁, steps[played.length]? = some step ∧
    Row stage runner id stack depth w index s played s₁ ∧
    Breaks stage runner ⟨id, index + played.length, depth⟩ stack step w s₁ s'

/-- What can become of a scenario that is to be played by a step `depth` deep. -/
inductive Entered (x : Clock × World σ) : Exit (Except Failure Report) → Clock × World σ → Prop
  | refused {e : Failure} (lines : List LogLine) : Entered x (.done (.error e)) (x.1, x.2.say lines)
  | played {scenario : Scenario} {lines lines' : List LogLine} {y : Clock × World σ}
    {turns : List Turn} {report : Report} (off : stack.contains id = false)
    (loaded : (stage.scenarios.load x.2.desk id).1 = .ok (some scenario))
    (played : Played stage runner scenario.id (stack.push id) (depth + 1) w 0 scenario.steps
      (x.1, x.2.say lines) turns report y) : Entered x (.done (.ok report)) (y.1, y.2.say lines')
  | parted {scenario : Scenario} {lines : List LogLine} {e : Exit (Except Failure Report)}
    {turns : List Turn} {y : Clock × World σ} (off : stack.contains id = false)
    (loaded : (stage.scenarios.load x.2.desk id).1 = .ok (some scenario)) (left : ∀ a, e ≠ .done a)
    (parted : Parted stage runner scenario.id (stack.push id) (depth + 1) w 0 scenario.steps
      (x.2.say lines) turns y.2) : Entered x e y

end

section

variable {id : String} {depth : Nat}

theorem Played.row {index : Nat} {steps : List Step} {x y : Clock × World σ} {played : List Turn}
    {r : Report} (h : Played stage runner id stack depth w index steps x played r y) :
    Row stage runner id stack depth w index x.2 played y.2 := by
  induction h with
  | all => exact .none
  | cancelledBefore seen => exact .none
  | onward turned goesOn later ih => exact .next turned ih
  | fatal turned failure isFatal => exact .next turned .none
  | cancelled turned failure => exact .next turned .none
  | stopped turned failure mild own stops => exact .next turned .none

theorem Row.placed {index : Nat} {s s' : World σ} {played : List Turn}
    (h : Row stage runner id stack depth w index s played s') {i : Nat} {t : Turn}
    (ht : played[i]? = some t) : t.place = ⟨id, index + i, depth⟩ := by
  induction h generalizing i with
  | none => cases ht
  | next turned later ih =>
    cases i with
    | zero =>
      cases ht
      exact turned.1
    | succ i =>
      rw [ih ht, Nat.add_right_comm, Nat.add_assoc]

theorem Row.stacked {index : Nat} {s s' : World σ} {played : List Turn}
    (h : Row stage runner id stack depth w index s played s') : ∀ t ∈ played, t.stack = stack := by
  induction h with
  | none => simp
  | next turned later ih => exact List.forall_mem_cons.mpr ⟨turned.2.1, ih⟩

/-- The last turn of a row. -/
theorem Row.last {index : Nat} {s s' : World σ} {played : List Turn} {t : Turn}
    (h : Row stage runner id stack depth w index s (played ++ [t]) s') :
    ∃ s₁, Row stage runner id stack depth w index s played s₁ ∧
      t.place = ⟨id, index + played.length, depth⟩ ∧ Ends stage runner w s₁ t s' := by
  induction played generalizing index s with
  | nil =>
    cases h with
    | next turned later =>
      cases later
      exact ⟨s, .none, turned.1, turned.ends⟩
  | cons u played ih =>
    cases h with
    | next turned later =>
      obtain ⟨s₁, row, place, ends⟩ := ih later
      refine ⟨s₁, .next turned row, ?_, ends⟩
      rw [place, List.length_cons, Nat.add_comm played.length, Nat.add_assoc]

theorem Parted.next {index : Nat} {steps : List Step} {x y : Clock × World σ} {t : Turn}
    {played : List Turn} {s' : World σ} (turned : Turned stage runner id stack depth w index step x t y)
    (goesOn : ¬ t.Halts) (h : Parted stage runner id stack depth w (index + 1) steps y.2 played s') :
    Parted stage runner id stack depth w index (step :: steps) x.2 (t :: played) s' := by
  obtain ⟨later, step', s₁, hstep, row, breaks⟩ := h
  refine ⟨List.forall_mem_cons.mpr ⟨goesOn, later⟩, step', s₁, hstep, .next turned row, ?_⟩
  rw [List.length_cons, Nat.add_comm played.length, ← Nat.add_assoc]
  exact breaks

theorem parted_of_left {index : Nat} {steps : List Step} {c c' : Clock} {s s' : World σ}
    {e : Exit Report} (h : stepsFrom stage runner id stack depth index steps w c s = (e, c', s'))
    (left : ∀ a, e ≠ .done a) :
    ∃ played, Parted stage runner id stack depth w index steps s played s' := by
  induction steps generalizing index c s e with
  | nil =>
    cases h
    exact absurd rfl (left _)
  | cons step rest ih =>
    rcases stepsFrom_cases h with
      ⟨played, r, rfl, -⟩ | ⟨e', hturn, left', -⟩ | ⟨t, y, turned, goesOn, h⟩
    · exact absurd rfl (left r)
    · exact ⟨[], by simp, step, s, rfl, .none, c, _, _, hturn, left'⟩
    · rcases Timed.bind_cases h with ⟨report, c₁, s₁, -, h⟩ | ⟨e', hrest, left', -⟩
      · cases h
        exact absurd rfl (left _)
      · obtain ⟨played, parted⟩ := ih hrest left'
        exact ⟨_, parted.next turned goesOn⟩

theorem entered {c c' : Clock} {s s' : World σ} {e : Exit (Except Failure Report)}
    (h : enter stage runner id stack depth w c s = (e, c', s')) :
    Entered stage runner id stack depth w (c, s) e (c', s') := by
  unfold enter at h
  split at h
  · cases h
    exact .refused _
  rename_i hoff
  have off : stack.contains id = false := Bool.eq_false_iff.mpr hoff
  rw [Timed.bind_of_done (Timed.desk_apply ..)] at h
  generalize hfound : stage.scenarios.load s.desk id = found at h
  obtain ⟨answer, lines⟩ := found
  simp only at h
  rw [Timed.bind_of_done (Timed.say_apply ..)] at h
  rcases answer with e | _ | scenario
  · cases h
    exact .refused _
  · cases h
    exact .refused _
  · have loaded : (stage.scenarios.load s.desk id).1 = .ok (some scenario) := by rw [hfound]
    simp only at h
    rw [Timed.bind_of_done (Timed.say_apply ..), World.say_say] at h
    generalize lines ++ _ = lines at h
    rcases Timed.bind_cases h with ⟨report, c₁, s₁, hsteps, h⟩ | ⟨e', hsteps, left', left⟩
    · obtain ⟨turns, played⟩ := played_of_done hsteps
      cases h
      exact Entered.played (x := (c, s)) (y := (c', s₁)) off loaded played
    · obtain ⟨turns, parted⟩ := parted_of_left hsteps left'
      exact Entered.parted (x := (c, s)) (y := (c', s')) off loaded left parted

end

/-- The runners of a stage: the one that a run begins with, and those for the scenarios inside. -/
inductive IsRunner (stage : Stage σ) : Runner σ → Prop
  | whole : IsRunner stage (Play.runner stage)
  | nested (fuel : Nat) : IsRunner stage (nested stage fuel)

/-- What is known of a scenario that was to be played, between the moment before and the moment after. -/
abbrev Conduct (σ : Type) :=
  (id : String) → CallStack → (depth : Nat) → Watch → Clock × World σ →
    Exit (Except Failure Report) → Clock × World σ → Prop

def Does (R : Conduct σ) (runner : Runner σ) : Prop :=
  ∀ ⦃id stack depth w c s e c' s'⦄, runner id stack depth w c s = (e, c', s') →
    R id stack depth w (c, s) e (c', s')

section

variable {R : Conduct σ} (halts : ∀ {id stack depth w x e}, R id stack depth w x (.done (.error e)) x)
  (enters : ∀ {runner}, IsRunner stage runner → Does R runner → ∀ {id stack depth w x e y},
    Entered stage runner id stack depth w x e y → R id stack depth w x e y)

include halts enters

theorem nested_does (fuel : Nat) : Does R (nested stage fuel) := by
  induction fuel with
  | zero =>
    intro id stack depth w c s e c' s' h
    cases h
    exact halts
  | succ fuel ih => exact fun id stack depth w c s e c' s' h => enters (.nested fuel) ih (entered h)

/-- What is done by entering scenarios whose steps have a runner that does it, is done by every
runner. -/
theorem runner_does : Does R (Play.runner stage) := by
  intro id stack depth w c s e c' s' h
  unfold Play.runner at h
  rw [Timed.bind_of_done (Timed.desk_apply ..)] at h
  exact nested_does halts enters _ h

end

end Play

namespace Run

variable {stage : Stage σ}

theorem events_opened (scenario : Scenario) (runId : String) (s : World σ) :
    (opened stage scenario runId s).events =
      s.events ++ stage.told [.runStarted runId scenario.id scenario.steps.length] :=
  stage.events_heard _ _

/-- A run whose references are refused. -/
theorem run_refused {scenario : Scenario} {s : World σ} {e : Failure}
    (h : (Preflight.check stage.scenarios s.desk scenario).1 = .error e) (runId : String) (c : Clock) :
    ∃ record c' s', (run stage scenario runId).run c s = (some record, c', s') ∧
      record.steps = Report.skippedFrom 0 scenario.steps ∧ s'.turns = s.turns ∧
      s'.events = s.events ++ stage.told
        [.runStarted runId scenario.id scenario.steps.length, .runCompleted record] := by
  obtain ⟨record, c', s', hrecord, -, -, hsteps, hturns, -, hevents, -⟩ :=
    conclude_told stage scenario runId c.now (.refused scenario e) c
      (((opened stage scenario runId s).say (Preflight.check stage.scenarios s.desk scenario).2).say
        [.error ("❌ 预检失败: " ++ e.message)])
  refine ⟨record, c', s', ?_, hsteps, hturns.trans (turns_opened ..), ?_⟩
  · rw [Timed.run, run_of_error h, hrecord]
  · refine hevents.trans ?_
    show (opened stage scenario runId s).events ++ _ = _
    rw [events_opened, List.append_assoc, ← stage.told_append]
    rfl

/-- Where the playing of steps begins in a run from `s` on: the start of the run has been told, and
nothing is set yet. -/
structure Begins (stage : Stage σ) (scenario : Scenario) (runId : String) (s s₀ : World σ) : Prop where
  page : s₀.page = s.page
  desk : s₀.desk = s.desk
  scope : s₀.scope = .empty
  begun : s₀.begun = s.begun
  turns : s₀.turns = s.turns
  events : s₀.events = s.events ++ stage.told [.runStarted runId scenario.id scenario.steps.length]

/-- What follows the last step of a run: its record is stored and told. -/
structure Concludes (stage : Stage σ) (record : RunRecord) (x y : Clock × World σ) : Prop where
  before : x.1.Before y.1
  page : ∃ r z, stage.browser.finishRecording.run .none x.1 x.2 = (r, z) ∧ y.2.page = z.2.page
  desk : y.2.desk = (stage.sink.storeResult x.2.desk record).2
  scope : y.2.scope = x.2.scope
  begun : y.2.begun = x.2.begun
  turns : y.2.turns = x.2.turns
  events : y.2.events = x.2.events ++ stage.told [.runCompleted record]

theorem begins (stage : Stage σ) (scenario : Scenario) (runId : String) (s : World σ) :
    Begins stage scenario runId s (onset stage scenario (opened stage scenario runId s)) where
  page := stage.page_heard ..
  desk := by rw [desk_onset, desk_opened]
  scope := rfl
  begun := begun_opened ..
  turns := by rw [turns_onset, turns_opened]
  events := events_opened scenario runId s

theorem conclude_follows (stage : Stage σ) (scenario : Scenario) (runId : String) (started : Nat)
    (ending : Ending) (c : Clock) (s : World σ) :
    ∃ record c' s', conclude stage scenario runId started ending .none c s = (.done record, c', s') ∧
      record.status = ending.status ∧ record.error = ending.error ∧ record.steps = ending.steps ∧
      Concludes stage record (c, s) (c', s') := by
  obtain ⟨video, c₁, s₁, hvideo, h₁⟩ := finishRecording_done stage c s
  have before := (maintains_finishRecording stage s).before (.refl s) hvideo
  obtain ⟨r, s₂, called, recorded⟩ := called_of_finishRecording hvideo
  obtain ⟨record, s', hrecord, hstatus, herror, hsteps, page, h⟩ :=
    conclude_of_recorded scenario runId started ending hvideo
  refine ⟨record, c₁, s', hrecord, hstatus, herror, hsteps, before, ⟨_, _, called, page.trans recorded⟩, ?_,
    h.scope.trans h₁.scope, h.begun.trans h₁.begun, h.turns.trans h₁.turns, ?_⟩
  · rw [h.desk, h₁.desk]
  · rw [h.events, h₁.events]

/-- A run whose steps are played, and what its record says of them. -/
theorem run_judged {scenario : Scenario} {s : World σ}
    (h : (Preflight.check stage.scenarios s.desk scenario).1 = .ok ()) (runId : String) (c : Clock) :
    ∃ record c' s' s₀ c₁ s₁ played report, (run stage scenario runId).run c s = (some record, c', s') ∧
      Begins stage scenario runId s s₀ ∧
      Play.Played stage (Play.runner stage) scenario.id (.root scenario.id) 0 .none 0 scenario.steps
        (c, s₀) played report (c₁, s₁) ∧
      record.steps = report.outcomes ∧ Judged scenario.steps played record ∧
      Concludes stage record (c₁, s₁) (c', s') := by
  obtain ⟨report, c₁, s₁, hsteps⟩ := Play.stepsFrom_ends stage scenario.id (.root scenario.id) 0 0
    scenario.steps c (onset stage scenario (opened stage scenario runId s))
  obtain ⟨played, hplayed⟩ := Play.played_of_done hsteps
  obtain ⟨record, c', s', hrecord, hstatus, herror, houtcomes, concludes⟩ :=
    conclude_follows stage scenario runId c.now (.ofReport report) c₁ s₁
  refine ⟨record, c', s', _, c₁, s₁, played, report, ?_, begins stage scenario runId s, hplayed,
    houtcomes, judged_of_played hplayed hstatus herror houtcomes, concludes⟩
  rw [Timed.run, run_of_ok h runId hsteps, hrecord]

/-- A run whose steps are played, from a world in which nothing is set yet. -/
theorem run_played {scenario : Scenario} {s : World σ}
    (h : (Preflight.check stage.scenarios s.desk scenario).1 = .ok ()) (runId : String) (c : Clock) :
    ∃ record c' s' s₀ c₁ s₁ played report, (run stage scenario runId).run c s = (some record, c', s') ∧
      s₀.desk = s.desk ∧ s₀.turns = s.turns ∧ s₀.scope = .empty ∧
      s₀.events = s.events ++ stage.told [.runStarted runId scenario.id scenario.steps.length] ∧
      Play.Played stage (Play.runner stage) scenario.id (.root scenario.id) 0 .none 0 scenario.steps
        (c, s₀) played report (c₁, s₁) ∧
      record.steps = report.outcomes ∧ s'.turns = s₁.turns ∧ s'.scope = s₁.scope ∧
      s'.events = s₁.events ++ stage.told [.runCompleted record] := by
  obtain ⟨record, c', s', s₀, c₁, s₁, played, report, hrun, begins, hplayed, hsteps, -, concludes⟩ :=
    run_judged h runId c
  exact ⟨record, c', s', s₀, c₁, s₁, played, report, hrun, begins.desk, begins.turns, begins.scope,
    begins.events, hplayed, hsteps, concludes.turns, concludes.scope, concludes.events⟩

/-- However the end of a run is cut short, nothing is played in it and no variable is set. -/
theorem conclude_keeps {scenario : Scenario} {runId : String} {started : Nat} {ending : Ending}
    {w : Watch} {c c' : Clock} {s s' : World σ} {e : Exit RunRecord}
    (h : conclude stage scenario runId started ending w c s = (e, c', s')) :
    s'.turns = s.turns ∧ s'.scope = s.scope ∧ s'.begun = s.begun := by
  rcases Timed.bind_cases h with ⟨video, c₁, s₁, hvideo, -⟩ | ⟨e', hvideo, -, -⟩
  · have h₁ := (maintains_finishRecording stage s).holds (.refl s) hvideo
    obtain ⟨record, s₂, hrecord, -, -, -, -, h₂⟩ :=
      conclude_of_recorded scenario runId started ending hvideo
    rw [hrecord] at h
    cases h
    exact ⟨h₂.turns.trans h₁.turns, h₂.scope.trans h₁.scope, h₂.begun.trans h₁.begun⟩
  · have h₁ := (maintains_finishRecording stage s).holds (.refl s) hvideo
    exact ⟨h₁.turns, h₁.scope, h₁.begun⟩

/-- A run is in the middle of its steps, or they are over. -/
theorem run_watched {scenario : Scenario} {runId : String} {w : Watch} {c c' : Clock} {s s' : World σ}
    {e : Exit RunRecord} (accepted : (Preflight.check stage.scenarios s.desk scenario).1 = .ok ())
    (h : run stage scenario runId w c s = (e, c', s')) :
    ∃ s₀, s₀.turns = s.turns ∧ s₀.begun = s.begun ∧ s₀.scope = .empty ∧
      ((∃ played report c₁ s₁, Play.Played stage (Play.runner stage) scenario.id (.root scenario.id) 0 w 0
          scenario.steps (c, s₀) played report (c₁, s₁) ∧
        s'.turns = s₁.turns ∧ s'.scope = s₁.scope ∧ s'.begun = s₁.begun) ∨
      ∃ played, Play.Parted stage (Play.runner stage) scenario.id (.root scenario.id) 0 w 0
        scenario.steps s₀ played s' ∧ ∀ record, e ≠ .done record) := by
  have accepted' : (Preflight.check stage.scenarios (opened stage scenario runId s).desk scenario).1 =
      .ok () := by
    rw [desk_opened]
    exact accepted
  refine ⟨onset stage scenario (opened stage scenario runId s), ?_, begun_opened .., rfl, ?_⟩
  · rw [turns_onset, turns_opened]
  rw [run_eq] at h
  rcases Timed.bind_cases h with ⟨ending, c₁, s₁, hperform, hconclude⟩ | ⟨e', hperform, left', left⟩
  · rw [perform_of_ok accepted'] at hperform
    obtain ⟨report, c₂, s₂, hsteps, hending⟩ := Timed.done_of_bind hperform
    cases hending
    obtain ⟨played, hplayed⟩ := Play.played_of_done hsteps
    exact .inl ⟨played, report, _, _, hplayed, conclude_keeps hconclude⟩
  · rw [perform_of_ok accepted'] at hperform
    rcases Timed.bind_cases hperform with ⟨report, c₂, s₂, -, hending⟩ | ⟨e₂, hsteps, left₂, -⟩
    · cases hending
      exact absurd rfl (left' _)
    · obtain ⟨played, parted⟩ := Play.parted_of_left hsteps left₂
      exact .inr ⟨played, parted, left⟩

end Run

end Rehearsal
