import Rehearsal.Proofs.PageViews
import Rehearsal.Proofs.WholeRun

/-! # What is only for onlookers

Pictures of steps, the stored record and the events that are told are for whoever looks at a run. Where
a picture is taken at once and of a page that stays as it is, and what is kept for onlookers is kept
where the run does not look, the run stands after a picture where it stood before.
-/
namespace Rehearsal

open Calendar (Timestamp)

variable {σ ν : Type}

/-- What a run has for onlookers: whether there is a picture of each step, how pictures are taken, where
they are kept with the record, whether anyone listens to events, and what time of day it is told. -/
structure Diagnostics (σ : Type) where
  captureEveryStep : Bool
  screenshot : (full : Bool) → Call σ (Answer Disk.Bytes)
  sink : ArtifactSink
  listening : Bool
  epoch : Timestamp

/-- The stage with other things for onlookers. -/
def Stage.watched (stage : Stage σ) (a : Diagnostics σ) : Stage σ where
  settings := { stage.settings with captureEveryStep := a.captureEveryStep }
  selectors := stage.selectors
  resources := stage.resources
  browser := { stage.browser with screenshot := a.screenshot }
  scenarios := stage.scenarios
  sessions := stage.sessions
  sink := a.sink
  listening := a.listening
  epoch := a.epoch

/-! ## The same but for pictures and times -/

/-- The outcomes are the same but for their pictures, in nested steps as well. -/
inductive Outcome.Agrees : Outcome → Outcome → Prop
  | mk {index : Nat} {action : Action} {name : Option String} {status : StepStatus}
    {selector error : Option String} {millis : Nat} {requests : List NetworkRequest}
    {logs : List String} (screenshot screenshot' : Option String) {children children' : List Outcome}
    (inside : List.Forall₂ Outcome.Agrees children children') :
    Outcome.Agrees
      ⟨index, action, name, status, selector, error, millis, screenshot, requests, logs, children⟩
      ⟨index, action, name, status, selector, error, millis, screenshot', requests, logs, children'⟩

/-- The records are the same but for the pictures of steps and the times of day. -/
structure RunRecord.Agrees (r r' : RunRecord) : Prop where
  runId : r.runId = r'.runId
  status : r.status = r'.status
  scenarioId : r.scenarioId = r'.scenarioId
  projectId : r.projectId = r'.projectId
  goal : r.goal = r'.goal
  steps : List.Forall₂ Outcome.Agrees r.steps r'.steps
  ended : r.endTime.isSome = r'.endTime.isSome
  totalMs : r.totalMs = r'.totalMs
  artifactDir : r.artifactDir = r'.artifactDir
  video : r.video = r'.video
  error : r.error = r'.error

inductive Event.Agrees : Event → Event → Prop
  | same (e : Event) : Event.Agrees e e
  | stepEnded (scenario : String) (depth : Nat) {o o' : Outcome} (h : o.Agrees o') :
    Event.Agrees (.stepEnded scenario depth o) (.stepEnded scenario depth o')
  | runCompleted {r r' : RunRecord} (h : r.Agrees r') :
    Event.Agrees (.runCompleted r) (.runCompleted r')

theorem Outcome.agrees_self : (o : Outcome) → o.Agrees o
  | ⟨_, _, _, _, _, _, _, _, _, _, children⟩ =>
    .mk _ _ (List.forall₂_same.mpr fun o (_ : o ∈ children) => agrees_self o)

/-! ## What a run does not look at -/

/-- Desks that differ only in what is kept for onlookers, in the sense of `D`, serve fit steps equally
well. -/
structure Stage.Heeds (stage : Stage σ) (D : Desk → Desk → Prop) (fit : Step → Prop) : Prop where
  equivalence : Equivalence D
  task : ∀ {d d' : Desk} {scope : Scope} {step : Step}, fit step → D d d' →
    stage.task d scope step = stage.task d' scope step
  file : ∀ {d d' d₀ : Desk} {scope : Scope} {step : Step} {task : Task} {path : Disk.Path}, fit step →
    D d d' → stage.task d₀ scope step = .ok task → task.deed.file? = some path →
    d.disk.has path = d'.disk.has path ∧ d.disk.readBytes path = d'.disk.readBytes path
  get : ∀ {d d' : Desk} (key : Session.Key), D d d' → stage.sessions.get d key = stage.sessions.get d' key
  put : ∀ {d d' : Desk} (key : Session.Key) (session : SavedSession), D d d' →
    (stage.sessions.put d key session).1 = (stage.sessions.put d' key session).1 ∧
      (stage.sessions.put d key session).2.2 = (stage.sessions.put d' key session).2.2 ∧
      D (stage.sessions.put d key session).2.1 (stage.sessions.put d' key session).2.1
  load : ∀ {d d' : Desk}, D d d' → stage.scenarios.load d = stage.scenarios.load d'
  ids : ∀ {d d' : Desk}, D d d' → stage.scenarios.ids d = stage.scenarios.ids d'

/-- Whether it succeeds or fails, the sink leaves its traces only where nobody but onlookers looks. -/
structure ArtifactSink.Within (sink : ArtifactSink) (D : Desk → Desk → Prop) : Prop where
  screenshot : ∀ d {name} png, IsPicture name → D d (sink.storeScreenshot d name png).2
  result : ∀ d record, D d (sink.storeResult d record).2

/-- Whatever is loaded in a run from the desk on under an identifier of the tree has fit steps only, and
they refer to scenarios of the tree. -/
def Stage.Encloses (stage : Stage σ) (d : Desk) (tree : String → Prop) (fit : Step → Prop) : Prop :=
  ∀ d' id scenario, stage.Reaches d d' → tree id →
    (stage.scenarios.load d' id).1 = .ok (some scenario) →
    ∀ step ∈ scenario.steps, fit step ∧ ∀ other, step.instruction.reference? = some other → tree other

/-- The world has changed only where nobody but onlookers looks. -/
structure World.Aside (view : σ → ν) (D : Desk → Desk → Prop) (s s' : World σ) : Prop where
  page : view s'.page = view s.page
  scope : s'.scope = s.scope
  begun : s'.begun = s.begun
  events : s'.events = s.events
  desk : D s.desk s'.desk

section

variable (stage : Stage σ) {view : σ → ν} {D : Desk → Desk → Prop}
  (still : (stage.browser.screenshot true).Still view) (within : stage.sink.Within D)
  (equivalence : Equivalence D)

include still within equivalence

/-- A picture is taken at once, and nothing comes of it that the run looks at. -/
theorem Play.capture_aside {name : String} (hname : IsPicture name) (w : Watch) (c : Clock)
    (s : World σ) (t : Trace) :
    ∃ s' screenshot, capture stage name w c (s, t) = (.done (), c, s', { t with screenshot }) ∧
      s.Aside view D s' ∧ stage.Reaches s.desk s'.desk := by
  obtain ⟨answer, page, log, hrun, same⟩ := still w c s
  unfold capture
  rw [Timed.bind_of_done (Timed.onFirst_of_done hrun t)]
  cases answer with
  | error fault =>
    exact ⟨_, t.screenshot, rfl, ⟨same, rfl, rfl, rfl, equivalence.refl _⟩, .refl⟩
  | ok png =>
    have hdesk : D s.desk (stage.sink.storeScreenshot s.desk name png).2 :=
      within.screenshot s.desk png hname
    have hreached : stage.Reaches s.desk (stage.sink.storeScreenshot s.desk name png).2 :=
      .screenshot .refl name png
    have hstored : (Work.storeScreenshot stage name png).run w c ({ s with page, log }, t) =
        (.done (stage.sink.storeScreenshot s.desk name png).1, c,
          ({ s with page, log, desk := (stage.sink.storeScreenshot s.desk name png).2 }, t)) := rfl
    simp only
    rw [Timed.bind_of_done hstored]
    cases (stage.sink.storeScreenshot s.desk name png).1 with
    | ok stored => exact ⟨_, some stored, rfl, ⟨same, rfl, rfl, rfl, hdesk⟩, hreached⟩
    | error e => exact ⟨_, t.screenshot, rfl, ⟨same, rfl, rfl, rfl, hdesk⟩, hreached⟩

theorem Play.captureAfter_aside {stem : String} (hstem : IsStem stem) (action : Action)
    (r : Except Failure Unit) (w : Watch) (c : Clock) (s : World σ) (t : Trace) :
    ∃ s' screenshot,
      captureAfter stage action stem r w c (s, t) = (.done (), c, s', { t with screenshot }) ∧
      s.Aside view D s' ∧ stage.Reaches s.desk s'.desk := by
  have hnone : ∃ s' screenshot,
      (pure () : Timed (World σ × Trace) Unit) w c (s, t) = (.done (), c, s', { t with screenshot }) ∧
        s.Aside view D s' ∧ stage.Reaches s.desk s'.desk :=
    ⟨s, t.screenshot, rfl, ⟨rfl, rfl, rfl, rfl, equivalence.refl _⟩, .refl⟩
  cases r with
  | ok u =>
    simp only [captureAfter]
    split
    · exact capture_aside stage still within equivalence (.shot hstem) w c s t
    · exact hnone
  | error e =>
    simp only [captureAfter]
    split
    · exact hnone
    · exact capture_aside stage still within equivalence (.error hstem) w c s t

omit still equivalence in
/-- Nor does it look at what is stored of it. -/
theorem Run.store_aside (record : RunRecord) (w : Watch) (c : Clock) (s : World σ) :
    ∃ s', store stage record w c s = (.done (), c, s') ∧ s.Aside view D s' := by
  obtain ⟨s', hstore, page, h⟩ := @store_apply σ stage record w c s
  refine ⟨s', hstore, congrArg view page, h.scope, h.begun, h.events, ?_⟩
  rw [h.desk]
  exact within.result s.desk record

end

end Rehearsal
