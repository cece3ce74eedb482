import Rehearsal.Proofs.ArtifactFolder
import Rehearsal.Proofs.LikePlay

/-! # Indifference to onlookers

Two runs that differ only in what is for onlookers take the same turns: their worlds stay the same but
for pictures and for what nobody looks at, through every step and every nested scenario.
-/
namespace Rehearsal

open Timed (Follows Never)

variable {σ ν : Type}

theorem Bench.instruction_of_screenshot {b : Bench} {d : Desk} {scope : Scope} {step : Step}
    {task : Task} (h : b.task d scope step = .ok task) (hdeed : task.deed = .screenshot) :
    step.instruction = .screenshot := by
  obtain ⟨deed, made, rfl⟩ := of_map_eq_ok h
  obtain rfl : deed = .screenshot := hdeed
  unfold Bench.deed at made
  cases hinstruction : step.instruction <;> simp only [hinstruction] at made
  case screenshot => rfl
  case wait value => split at made <;> cases made
  case uploadFile target path =>
    obtain ⟨_, -, hpath⟩ := of_map_eq_ok made
    cases hpath
  case pasteImage target path =>
    obtain ⟨_, -, hpath⟩ := of_map_eq_ok made
    cases hpath
  all_goals cases made

/-- Pictures apart, the browser is the same for all onlookers. -/
theorem Browser.SeenBy.watched {stage : Stage σ} {a b : Diagnostics σ} {view : σ → ν} {α : Type}
    {call call' : Call σ α} (seen : stage.browser.SeenBy view)
    (h : (stage.watched a).browser.Pairs (stage.watched b).browser call call') :
    Call.Alike view call call' := by
  cases h with
  | goto url => exact seen (.goto url)
  | currentUrl => exact seen .currentUrl
  | probe selector => exact seen (.probe selector)
  | perform selector operation => exact seen (.perform selector operation)
  | evaluate script => exact seen (.evaluate script)
  | snapshot => exact seen .snapshot
  | restore session => exact seen (.restore session)
  | takeRequests => exact seen .takeRequests
  | finishRecording => exact seen .finishRecording

/-! ## Two runs with different onlookers -/

/-- The worlds of two runs that differ in what is for onlookers. -/
structure Stage.Watched (stage : Stage σ) (a b : Diagnostics σ) (view : σ → ν) (D : Desk → Desk → Prop)
    (before : List Event) (s t : World σ) : Prop where
  page : view s.page = view t.page
  scope : s.scope = t.scope
  begun : s.begun = t.begun
  desk : D s.desk t.desk
  told : ∃ events events', List.Forall₂ Event.Agrees events events' ∧
    s.events = before ++ (stage.watched a).told events ∧
    t.events = before ++ (stage.watched b).told events'

section

variable {stage : Stage σ} {a b : Diagnostics σ} {view : σ → ν} {D : Desk → Desk → Prop}
  {before : List Event} {s s' t t' : World σ}

namespace Stage.Watched

theorem heard (h : stage.Watched a b view D before s t) {e e' : Event} (he : e.Agrees e') :
    stage.Watched a b view D before ((stage.watched a).heard e s) ((stage.watched b).heard e' t) where
  page := by simp [h.page]
  scope := by simp [h.scope]
  begun := by simp [h.begun]
  desk := by
    rw [Stage.desk_heard, Stage.desk_heard]
    exact h.desk
  told := by
    obtain ⟨events, events', agree, hs, ht⟩ := h.told
    refine ⟨events ++ [e], events' ++ [e'], List.rel_append agree (.cons he .nil), ?_, ?_⟩
    · rw [Stage.events_heard, hs, Stage.told_append, List.append_assoc]
    · rw [Stage.events_heard, ht, Stage.told_append, List.append_assoc]

theorem closes {place : Place} {stack : CallStack} {step : Step} {o o' : Outcome}
    {failure : Option Failure} (h : stage.Watched a b view D before s t) (ho : o.Agrees o') :
    stage.Watched a b view D before
      ((stage.watched a).closes ⟨place, stack, step, o, failure⟩ s)
      ((stage.watched b).closes ⟨place, stack, step, o', failure⟩ t) := by
  have said : stage.Watched a b view D before (s.say [Narration.stepEnd place o])
      (t.say [Narration.stepEnd place o']) := ⟨h.page, h.scope, h.begun, h.desk, h.told⟩
  have heard := said.heard (.stepEnded place.scenario place.depth ho)
  exact ⟨heard.page, heard.scope, heard.begun, heard.desk, heard.told⟩

theorem aside (equivalence : Equivalence D) (h : stage.Watched a b view D before s t)
    (hs : s.Aside view D s') (ht : t.Aside view D t') : stage.Watched a b view D before s' t' where
  page := by rw [hs.page, ht.page, h.page]
  scope := by rw [hs.scope, ht.scope, h.scope]
  begun := by rw [hs.begun, ht.begun, h.begun]
  desk := equivalence.trans (equivalence.symm hs.desk) (equivalence.trans h.desk ht.desk)
  told := by
    rw [hs.events, ht.events]
    exact h.told

/-- Calls that are alike go alike in such worlds. -/
theorem follows {α : Type} {B : α → Prop} {call call' : Call σ α} (h : Call.Alike view call call') :
    Follows (stage.Watched a b view D before) Eq B call.run call'.run :=
  h.follows (fun h => h.page) (fun _ _ same h => ⟨same, h.scope, h.begun, h.desk, h.told⟩)
    fun _ h => ⟨h.page, h.scope, h.begun, h.desk, h.told⟩

end Stage.Watched

/-- Two runs from a desk on that go alike but for what is for onlookers. -/
def Likeness.watched (stage : Stage σ) (a b : Diagnostics σ) (view : σ → ν) (D : Desk → Desk → Prop)
    (before : List Event) (d : Desk) (fit : Step → Prop) : Likeness σ where
  world s t := stage.Watched a b view D before s t ∧ (stage.watched a).Reaches d s.desk
  outcome := Outcome.Agrees
  picture _ _ := True
  loose := False
  bad := Never
  fit := fit
  unpictured := trivial

variable {d : Desk} {fit : Step → Prop}

theorem Likeness.eq_of_loosely {α : Type} {x y : α}
    (h : (Likeness.watched stage a b view D before d fit).Loosely x y) : x = y := h.resolve_left id

theorem Likeness.eq_of_lines {logs logs' : List String}
    (h : List.Forall₂ (Likeness.watched stage a b view D before d fit).Line logs logs') :
    logs = logs' :=
  List.forall₂_eq_eq_eq ▸ h.imp fun _ _ line => eq_of_loosely line.loosely

section

variable (seen : stage.browser.SeenBy view) (still : (a.screenshot true).Still view)
  (still' : (b.screenshot true).Still view) (within : a.sink.Within D) (within' : b.sink.Within D)
  (heeds : stage.Heeds D fit) (plain : ∀ step, fit step → step.instruction ≠ .screenshot)

include seen still still' within within' heeds plain

theorem Stage.admits_watched :
    (stage.watched a).Admits (stage.watched b) (.watched stage a b view D before d fit) where
  say _ h := ⟨⟨h.1.page, h.1.scope, h.1.begun, h.1.desk, h.1.told⟩, h.2⟩
  heard he h := by
    obtain rfl := Likeness.eq_of_loosely he
    exact ⟨h.1.heard (.same _), Stage.reaches_heard _ h.2⟩
  scope_eq h := h.1.scope
  begun_eq h := .inr h.1.begun
  scope _ h := ⟨⟨h.1.page, rfl, h.1.begun, h.1.desk, h.1.told⟩, h.2⟩
  begun h := ⟨⟨h.1.page, h.1.scope, congrArg (· + 1) h.1.begun, h.1.desk, h.1.told⟩, h.2⟩
  closes hplace ho h := by
    obtain ⟨rfl, rfl⟩ := Prod.mk.inj (Likeness.eq_of_loosely hplace)
    refine ⟨h.1.closes (ho rfl), ?_⟩
    rw [Stage.desk_closes]
    exact h.2
  call h := by
    refine (seen.watched h).follows (fun h => h.1.page) (fun _ _ same h => ?_) fun _ h => ?_
    · exact ⟨⟨same, h.1.scope, h.1.begun, h.1.desk, h.1.told⟩, h.2⟩
    · exact ⟨⟨h.1.page, h.1.scope, h.1.begun, h.1.desk, h.1.told⟩, h.2⟩
  settings_eq := ⟨rfl, rfl⟩
  references := rfl
  task hfit h := by
    rw [h.1.scope]
    exact heeds.task hfit h.1.desk
  file hfit h made hpath := heeds.file hfit h.1.desk made hpath
  get key h := heeds.get key h.1.desk
  put key session h := by
    obtain ⟨answer, lines, desks⟩ := heeds.put key session h.1.desk
    exact ⟨answer, .inr lines, ⟨h.1.page, h.1.scope, h.1.begun, desks, h.1.told⟩,
      .session h.2 key session⟩
  load id h := by
    have hload : stage.scenarios.load _ = stage.scenarios.load _ := heeds.load h.1.desk
    exact ⟨congrArg (fun load => (load id).1) hload, .inr (congrArg (fun load => (load id).2) hload)⟩
  shot _ _ _ _ _ hfit made hdeed _ _ _ _ :=
    absurd (Bench.instruction_of_screenshot made hdeed) (plain _ hfit)
  pictured action r hstem hstem' _ := by
    rintro w v _ c ⟨s, u⟩ ⟨t, u'⟩ ⟨⟨hst, reached⟩, hu⟩
    obtain ⟨s', screenshot, hs, aside, reaches⟩ :=
      Play.captureAfter_aside (stage.watched a) still within heeds.equivalence hstem action r w c s u
    obtain ⟨t', screenshot', ht, aside', -⟩ :=
      Play.captureAfter_aside (stage.watched b) still' within' heeds.equivalence hstem' action r v
        c t u'
    rw [hs, ht]
    have hworld := hst.aside heeds.equivalence aside aside'
    exact ⟨.refl w c, .inr ⟨(), _, rfl, ⟨⟨hworld, reached.trans reaches⟩,
      ⟨hu.logs, hu.selector, trivial, hu.children⟩⟩, rfl⟩⟩
  outcome index action name status error millis requests h := by
    rw [h.selector, Likeness.eq_of_lines h.logs]
    exact .mk _ _ h.children
  reads h := by
    cases h
    exact ⟨rfl, rfl, rfl, rfl⟩
  fatal h := h.elim
  take h := h.elim

section

variable {tree : String → Prop} (encloses : (stage.watched a).Encloses d tree fit)

include encloses

theorem Play.reports_watched (fuel : Nat) {id : String} (hid : tree id) (stack : CallStack)
    (depth : Nat) :
    (Likeness.watched stage a b view D before d fit).Reports
      (nested (stage.watched a) fuel id stack depth) (nested (stage.watched b) fuel id stack depth) := by
  induction fuel generalizing id stack depth with
  | zero => exact .pure rfl
  | succ fuel ih =>
    refine follows_enter (Stage.admits_watched seen still still' within within' heeds plain)
      (List.Subset.refl _) (.inl rfl) .rfl ?_
    intro scenario s t hst _ hload step hstep
    obtain ⟨hfit, hrefers⟩ := encloses s.desk id scenario hst.2 hid hload step hstep
    exact ⟨hfit, fun other hother => ih (hrefers other hother) (stack.push id) (depth + 1)⟩

theorem Play.reports_runners {id : String} (hid : tree id) (stack : CallStack) (depth : Nat) :
    (Likeness.watched stage a b view D before d fit).Reports
      (runner (stage.watched a) id stack depth) (runner (stage.watched b) id stack depth) := by
  intro w v hw c s t hst
  have hlimit : depthLimit (stage.watched a) s.desk = depthLimit (stage.watched b) t.desk :=
    congrArg (·.length + 1) (heeds.ids hst.1.desk)
  unfold runner
  rw [Timed.bind_of_done (Timed.desk_apply ..), Timed.bind_of_done (Timed.desk_apply ..), hlimit]
  exact reports_watched seen still still' within within' heeds plain encloses _ hid stack depth w v hw c s
    t hst

/-- The steps of a run come to the same report, up to pictures. -/
theorem Play.stepsFrom_watched {steps : List Step}
    (hsteps : ∀ step ∈ steps, fit step ∧ ∀ other, step.instruction.reference? = some other → tree other)
    (id : String) (c : Clock) (hst : stage.Watched a b view D before s t)
    (reached : (stage.watched a).Reaches d s.desk) :
    ∃ report report' c' s' t',
      stepsFrom (stage.watched a) (runner (stage.watched a)) id (.root id) 0 0 steps .none c s =
        (.done report, c', s') ∧
      stepsFrom (stage.watched b) (runner (stage.watched b)) id (.root id) 0 0 steps .none c t =
        (.done report', c', t') ∧
      stage.Watched a b view D before s' t' ∧ report.status = report'.status ∧
      List.Forall₂ Outcome.Agrees report.outcomes report'.outcomes ∧
      report.cancelled = report'.cancelled ∧ report.fatal = report'.fatal := by
  have h : Follows (Likeness.watched stage a b view D before d fit).world
      ((Likeness.watched stage a b view D before d fit).ReportFrom 0 0)
      (Likeness.watched stage a b view D before d fit).BadReport
      (stepsFrom (stage.watched a) (runner (stage.watched a)) id (.root id) 0 0 steps)
      (stepsFrom (stage.watched b) (runner (stage.watched b)) id (.root id) 0 0 steps) :=
    follows_stepsFrom (Stage.admits_watched seen still still' within within' heeds plain) .rfl
      (fun step hstep => (hsteps step hstep).1) fun step hstep other hother =>
        reports_runners seen still still' within within' heeds plain encloses
          ((hsteps step hstep).2 other hother) (.root id) 0
  obtain ⟨report, c', s', hs, hbad | ⟨report', t', ht, hworld, hreport⟩⟩ := h.done c ⟨hst, reached⟩
  · obtain ⟨e, -, hbad⟩ := hbad
    exact hbad.elim
  · exact ⟨report, report', c', s', t', hs, ht, hworld.1, hreport.status, hreport.same.outcomes,
      hreport.cancelled, hreport.fatal⟩

end

namespace Run

omit still still' within within' heeds plain in
theorem follows_finishRecording :
    Follows (stage.Watched a b view D before) Eq Never (finishRecording (stage.watched a))
      (finishRecording (stage.watched b)) := by
  have hcall : Follows (stage.Watched a b view D before) Eq Never
      (stage.watched a).browser.finishRecording.run (stage.watched b).browser.finishRecording.run :=
    Stage.Watched.follows (seen.watched .finishRecording)
  refine .andThen hcall ?_
  rintro r _ rfl
  cases r with
  | ok video => exact .pure rfl
  | error fault =>
    refine .andThen (.modify fun s t h => ?_) fun _ _ _ => .pure rfl
    exact ⟨h.page, h.scope, h.begun, h.desk, h.told⟩

omit still still' plain in
theorem follows_conclude (location : a.sink.location = b.sink.location) (scenario : Scenario)
    (runId : String) (started : Nat) {ending ending' : Ending} (status : ending.status = ending'.status)
    (error : ending.error = ending'.error)
    (steps : List.Forall₂ Outcome.Agrees ending.steps ending'.steps) :
    Follows (stage.Watched a b view D before) RunRecord.Agrees Never
      (conclude (stage.watched a) scenario runId started ending)
      (conclude (stage.watched b) scenario runId started ending') := by
  refine .andThen (follows_finishRecording seen) ?_
  rintro video _ rfl
  refine .andThen (.read (Q := Eq) fun _ _ _ _ => rfl) ?_
  rintro ended _ rfl
  intro w v _ c s t hst
  simp only
  generalize hrecord : (RunRecord.mk runId ending.status scenario.id _ _ ending.steps _ _ _ _ video
    ending.error) = record
  generalize hrecord' : (RunRecord.mk runId ending'.status scenario.id _ _ ending'.steps _ _ _ _ video
    ending'.error) = record'
  have agree : record.Agrees record' := by
    subst hrecord hrecord'
    exact ⟨rfl, status, rfl, rfl, rfl, steps, by simp only [Option.isSome_some], rfl, location, rfl,
      error⟩
  obtain ⟨s', hs, aside⟩ := store_aside (stage.watched a) within record w c s
  obtain ⟨t', ht, aside'⟩ := store_aside (stage.watched b) within' record' v c t
  have stored := hst.aside heeds.equivalence aside aside'
  have said : stage.Watched a b view D before (s'.say (Narration.runEnd record))
      (t'.say (Narration.runEnd record')) :=
    ⟨stored.page, stored.scope, stored.begun, stored.desk, stored.told⟩
  rw [Timed.bind_of_done hs, Timed.bind_of_done (Timed.say_apply ..),
    Timed.bind_of_done (Stage.tell_apply ..), Timed.bind_of_done ht,
    Timed.bind_of_done (Timed.say_apply ..), Timed.bind_of_done (Stage.tell_apply ..)]
  exact ⟨.refl w c, .inr ⟨_, _, rfl, said.heard (.runCompleted agree), agree⟩⟩

omit still still' plain in
/-- Both runs are concluded, and at the same moment. -/
theorem conclude_both (location : a.sink.location = b.sink.location) (scenario : Scenario)
    (runId : String) (started : Nat) (ending ending' : Ending) (status : ending.status = ending'.status)
    (error : ending.error = ending'.error)
    (steps : List.Forall₂ Outcome.Agrees ending.steps ending'.steps) (c : Clock)
    (hst : stage.Watched a b view D before s t) :
    ∃ record record' c' s' t',
      conclude (stage.watched a) scenario runId started ending .none c s = (.done record, c', s') ∧
      conclude (stage.watched b) scenario runId started ending' .none c t = (.done record', c', t') ∧
      record.Agrees record' ∧ stage.Watched a b view D before s' t' := by
  have h : Follows (stage.Watched a b view D before) RunRecord.Agrees Never
      (conclude (stage.watched a) scenario runId started ending)
      (conclude (stage.watched b) scenario runId started ending') :=
    follows_conclude seen within within' heeds location scenario runId started status error steps
  obtain ⟨record, c', s', hs, hbad | ⟨record', t', ht, hworld, agree⟩⟩ := h.done c hst
  · exact hbad.elim
  · exact ⟨record, record', c', s', t', hs, ht, agree, hworld⟩

omit seen still still' within within' plain in
theorem opened_both (scenario : Scenario) (s : World σ) (runId : String) :
    stage.Watched a b view D s.events (opened (stage.watched a) scenario runId s)
      (opened (stage.watched b) scenario runId s) := by
  have said : stage.Watched a b view D s.events (s.say (Narration.runStart runId scenario))
      (s.say (Narration.runStart runId scenario)) :=
    ⟨rfl, rfl, rfl, heeds.equivalence.refl _, [], [], .nil, by simp [World.say], by simp [World.say]⟩
  exact said.heard (.same _)

omit still still' plain in
/-- Both runs are refused. -/
theorem refused_both (location : a.sink.location = b.sink.location) (scenario : Scenario) (s : World σ)
    {e : Failure} (verdict : (Preflight.check stage.scenarios s.desk scenario).1 = .error e)
    (runId : String) (c : Clock) :
    ∃ record record' c' s' t',
      (run (stage.watched a) scenario runId).run c s = (some record, c', s') ∧
      (run (stage.watched b) scenario runId).run c s = (some record', c', t') ∧
      record.Agrees record' ∧ stage.Watched a b view D s.events s' t' := by
  have begun : stage.Watched a b view D s.events (opened (stage.watched a) scenario runId s)
      (opened (stage.watched b) scenario runId s) := opened_both heeds scenario s runId
  have refused : stage.Watched a b view D s.events
      (((opened (stage.watched a) scenario runId s).say
        (Preflight.check stage.scenarios s.desk scenario).2).say [.error ("❌ 预检失败: " ++ e.message)])
      (((opened (stage.watched b) scenario runId s).say
        (Preflight.check stage.scenarios s.desk scenario).2).say [.error ("❌ 预检失败: " ++ e.message)]) :=
    ⟨begun.page, begun.scope, begun.begun, begun.desk, begun.told⟩
  obtain ⟨record, record', c', s', t', hs, ht, agree, hworld⟩ :=
    conclude_both seen within within' heeds location scenario runId c.now
      (.refused scenario e) (.refused scenario e) rfl rfl
      (List.forall₂_same.mpr fun o _ => o.agrees_self) c refused
  have verdicts : ∀ x : Diagnostics σ,
      (Preflight.check (stage.watched x).scenarios s.desk scenario).1 = .error e := fun _ => verdict
  have hrun := (run_of_error (verdicts a) runId .none c).trans hs
  have hrun' := (run_of_error (verdicts b) runId .none c).trans ht
  exact ⟨record, record', c', s', t', by rw [Timed.run, hrun], by rw [Timed.run, hrun'], agree, hworld⟩

variable {tree : String → Prop}

/-- Both runs play their scenario. -/
theorem played_both (location : a.sink.location = b.sink.location) (scenario : Scenario) (s : World σ)
    (steps : ∀ step ∈ scenario.steps,
      fit step ∧ ∀ other, step.instruction.reference? = some other → tree other)
    (encloses : (stage.watched a).Encloses s.desk tree fit)
    (verdict : (Preflight.check stage.scenarios s.desk scenario).1 = .ok ()) (runId : String) (c : Clock) :
    ∃ record record' c' s' t',
      (run (stage.watched a) scenario runId).run c s = (some record, c', s') ∧
      (run (stage.watched b) scenario runId).run c s = (some record', c', t') ∧
      record.Agrees record' ∧ stage.Watched a b view D s.events s' t' := by
  have begun : stage.Watched a b view D s.events (opened (stage.watched a) scenario runId s)
      (opened (stage.watched b) scenario runId s) := opened_both heeds scenario s runId
  have ready : stage.Watched a b view D s.events
      (onset (stage.watched a) scenario (opened (stage.watched a) scenario runId s))
      (onset (stage.watched b) scenario (opened (stage.watched b) scenario runId s)) :=
    ⟨begun.page, rfl, begun.begun, begun.desk, begun.told⟩
  obtain ⟨report, report', c₁, s₁, t₁, hs₁, ht₁, hworld₁, status, outcomes, cancelled, fatal⟩ :=
    Play.stepsFrom_watched seen still still' within within' heeds plain encloses steps scenario.id c
      ready (by rw [desk_onset, desk_opened]; exact .refl)
  have error : (Ending.ofReport report).error = (Ending.ofReport report').error := by
    rw [Ending.ofReport, Ending.ofReport, fatal, cancelled]
  obtain ⟨record, record', c', s', t', hs, ht, agree, hworld⟩ :=
    conclude_both seen within within' heeds location scenario runId c.now
      (.ofReport report) (.ofReport report') status error outcomes c₁ hworld₁
  have verdicts : ∀ x : Diagnostics σ,
      (Preflight.check (stage.watched x).scenarios s.desk scenario).1 = .ok () := fun _ => verdict
  have hrun := (run_of_ok (verdicts a) runId hs₁).trans hs
  have hrun' := (run_of_ok (verdicts b) runId ht₁).trans ht
  exact ⟨record, record', c', s', t', by rw [Timed.run, hrun], by rw [Timed.run, hrun'], agree, hworld⟩

/-- Two runs that begin in one world. -/
theorem run_both (location : a.sink.location = b.sink.location) (scenario : Scenario) (s : World σ)
    (steps : ∀ step ∈ scenario.steps,
      fit step ∧ ∀ other, step.instruction.reference? = some other → tree other)
    (encloses : (stage.watched a).Encloses s.desk tree fit) (runId : String) (c : Clock) :
    ∃ record record' c' s' t',
      (run (stage.watched a) scenario runId).run c s = (some record, c', s') ∧
      (run (stage.watched b) scenario runId).run c s = (some record', c', t') ∧
      record.Agrees record' ∧ stage.Watched a b view D s.events s' t' := by
  cases verdict : (Preflight.check stage.scenarios s.desk scenario).1 with
  | error e => exact refused_both seen within within' heeds location scenario s verdict runId c
  | ok u =>
    exact played_both seen still still' within within' heeds plain location scenario s steps encloses
      verdict runId c

end Run

end

end

/-! ## The calls of a run -/

/-- The stage with a log of the calls of its browser. -/
def Stage.logged (stage : Stage σ) : Stage (σ × List (Nat × Option Asking)) where
  toBench := stage.toBench
  browser := stage.browser.logged
  scenarios := stage.scenarios
  sessions := stage.sessions
  sink := stage.sink
  listening := stage.listening
  epoch := stage.epoch

def Diagnostics.logged (a : Diagnostics σ) : Diagnostics (σ × List (Nat × Option Asking)) where
  captureEveryStep := a.captureEveryStep
  screenshot full := (a.screenshot full).logging (some (.screenshot full))
  sink := a.sink
  listening := a.listening
  epoch := a.epoch

theorem Stage.reaches_of_logged {stage : Stage σ} {d d' : Desk} (h : stage.logged.Reaches d d') :
    stage.Reaches d d' := by
  induction h with
  | refl => exact .refl
  | screenshot _ name png ih => exact .screenshot ih name png
  | session _ key session ih => exact .session ih key session

namespace Run

/-- Pictures of every step and a listener, with a folder to keep everything in. -/
def attended : Diagnostics Unit where
  captureEveryStep := true
  screenshot _ := .done (.ok [])
  sink := .folder "/kept"
  listening := true
  epoch := ⟨0, 0⟩

/-- Nothing of this works, and nobody listens. -/
def deserted : Diagnostics Unit where
  captureEveryStep := false
  screenshot _ := .done (.error (.protocol "no picture"))
  sink := (ArtifactSink.folder "/kept").failing fun _ _ => some (.disk "disk full")
  listening := false
  epoch := ⟨86400, 0⟩

def evaluating : Scenario := ⟨"a", none, none, none, [.ofInstruction (.runScript "1")]⟩

def awaiting : Scenario :=
  ⟨"r", none, none, none,
    [.ofInstruction (.runScenario "a"), ⟨none, .waitFor "#gone", ⟨false, false, some 100⟩⟩]⟩

def keeping : World (Unit × List (Nat × Option Asking)) :=
  .ofPage ((), []) (.ofDisk ⟨[], [(["kept"], .folder)]⟩)

end Run

end Rehearsal
