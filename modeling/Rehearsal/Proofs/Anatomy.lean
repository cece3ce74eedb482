import Rehearsal.Proofs.LoggingIn

/-! # The anatomy of a turn

A turn that was over, taken apart: what is left of earlier requests is thrown away, the step is attempted,
a picture may be taken, the step's own requests are taken and its failure is noted. A step that has a
scenario played does so once, between acts of its own. In a run that is never cancelled nothing is given
up on the way, so that what follows a fatal failure is known exactly.
-/
namespace Rehearsal

open Timed (Maintains Whatever)

variable {σ : Type}

/-- The note of a failure, where there is one. -/
def Stage.complaint (stage : Stage σ) (place : Place) (r : Except Failure Unit) (x : World σ × Trace) :
    World σ × Trace :=
  match r with
  | .ok _ => x
  | .error e =>
    (stage.heard (.stepLog place.scenario place.depth place.index ("❌ " ++ e.message))
      (x.1.say [.debug (place.text ++ " " ++ ("❌ " ++ e.message))]),
      { x.2 with logs := x.2.logs ++ ["❌ " ++ e.message] })

theorem Stage.complaint_keeps (stage : Stage σ) (place : Place) (r : Except Failure Unit)
    (x : World σ × Trace) :
    (stage.complaint place r x).1.page = x.1.page ∧ (stage.complaint place r x).1.turns = x.1.turns ∧
      (stage.complaint place r x).1.begun = x.1.begun ∧
      (stage.complaint place r x).2.children = x.2.children := by
  cases r with
  | ok u => exact ⟨rfl, rfl, rfl, rfl⟩
  | error e => exact ⟨stage.page_heard .., stage.turns_heard .., stage.begun_heard .., rfl⟩

namespace Play

section

variable (stage : Stage σ) (runner : Runner σ)

/-- The parts of a turn from `x` to `y`. -/
inductive Anatomy (w : Watch) (x : Clock × World σ) (t : Turn) (y : Clock × World σ) : Prop
  | mk {stem : String} {old requests : List NetworkRequest} {r : Except Failure Unit} {millis : Nat}
    {a d : Clock × World σ} {b b' : Clock × World σ × Trace}
    (emptied : stage.browser.takeRequests.run w x.1 (stage.opens t.place t.step x.2) = (.done old, a))
    (attempted : attempt stage runner t.place t.stack stem t.step w a.1 (a.2, .empty) = (.done r, b))
    (captured : captureAfter stage t.step.action stem r w b.1 b.2 = (.done (), b'))
    (taken : stage.browser.takeRequests.run w b'.1 b'.2.1 = (.done requests, d))
    (later : b.1.Before y.1)
    (failure : t.failure = failureOf r)
    (outcome : t.outcome = (stage.complaint t.place r (d.2, b'.2.2)).2.outcome t.place t.step t.failure
      millis requests)
    (closes : y = (d.1, stage.closes t (stage.complaint t.place r (d.2, b'.2.2)).1)) :
    Anatomy w x t y

variable (place : Place) (stack : CallStack) (step : Step)

/-- What an attempt at a step has come to, where it was not cancelled: the step did it alone, and has kept
a picture perhaps, or it had a scenario played, with whose failure it fails. -/
inductive Undergone (x : Clock × World σ × Trace) (r : Except Failure Unit)
    (y : Clock × World σ × Trace) : Prop
  | alone {z : World σ × Trace} (goes : stage.GoesTo place x.2 z)
    (kept : y.2 = z ∨
      r = .ok () ∧ ∃ reference, y.2 = (z.1, { z.2 with screenshot := some reference }))
  | plays {id : String} {w : Watch} {r' : Except Failure Unit} {a b : Clock × World σ × Trace}
    (reference : step.instruction.reference? = some id) (before : stage.GoesTo place x.2 a.2)
    (idle : (∀ rule, step.instruction ≠ .ensureLogin rule) → a.2.1.page = x.2.1.page)
    (performed : (Login.perform runner place stack id).run w a.1 a.2 = (.done r', b))
    (later : b.1.Before y.1) (after : stage.GoesTo place b.2 y.2)
    (bears : ∀ e, r' = .error e → r = .error (step.passOn e) ∧ (e.isFatal = true → y = b))

end

variable {stage : Stage σ} {runner : Runner σ} {place : Place} {stack : CallStack} {step : Step}
  {w : Watch}

/-- To keep a picture or not is no change of the world. -/
theorem same_of_kept {y z : World σ × Trace} {r : Except Failure Unit}
    (kept : y = z ∨ r = .ok () ∧ ∃ reference, y = (z.1, { z.2 with screenshot := some reference })) :
    y.1 = z.1 ∧ y.2.children = z.2.children := by
  rcases kept with rfl | ⟨-, reference, rfl⟩
  · exact ⟨rfl, rfl⟩
  · exact ⟨rfl, rfl⟩

theorem anatomy_of_step {c c' : Clock} {s s' : World σ} {o : Outcome} {f : Option Failure}
    (h : Play.step stage runner place stack step w c s = (.done (o, f), c', s')) :
    ∃ stem old requests r millis a d b b',
      stage.browser.takeRequests.run w c s.counted = (.done old, a) ∧
      attempt stage runner place stack stem step w a.1 (a.2, .empty) = (.done r, b) ∧
      captureAfter stage step.action stem r w b.1 b.2 = (.done (), b') ∧
      stage.browser.takeRequests.run w b'.1 b'.2.1 = (.done requests, d) ∧ f = failureOf r ∧
      o = (stage.complaint place r (d.2, b'.2.2)).2.outcome place step f millis requests ∧
      (c', s') = (d.1, (stage.complaint place r (d.2, b'.2.2)).1) := by
  unfold Play.step at h
  rw [Timed.bind_of_done (Timed.now_apply ..), Timed.bind_of_done (Timed.begin_apply ..)] at h
  obtain ⟨old, c₁, s₁, hempty, h⟩ := Timed.done_of_bind h
  obtain ⟨⟨⟨failed, requests⟩, trace⟩, c₂, s₂, hown, h⟩ := Timed.done_of_bind h
  have hown := Timed.done_of_withOwn hown
  obtain ⟨r, c₃, y₃, hattempt, hown⟩ := Timed.done_of_bind hown
  obtain ⟨u, c₄, y₄, hcapture, hown⟩ := Timed.done_of_bind hown
  obtain ⟨requests', c₅, y₅, htake, hown⟩ := Timed.done_of_bind hown
  obtain ⟨htake, htrace⟩ := Timed.done_of_onFirst htake
  obtain ⟨s₅, t₅⟩ := y₅
  cases htrace
  simp only at h
  rw [Timed.bind_of_done (Timed.now_apply ..)] at h
  refine ⟨_, old, requests', r, c₂.now - c.now, (c₁, s₁), (c₅, s₅), (c₃, y₃), (c₄, y₄), hempty, hattempt,
    hcapture, htake, ?_⟩
  cases r with
  | ok u =>
    cases hown
    cases h
    exact ⟨rfl, rfl, rfl⟩
  | error e =>
    simp only at hown
    rw [Timed.bind_of_done (stage.note_apply ..)] at hown
    cases hown
    cases h
    exact ⟨rfl, rfl, rfl⟩

theorem anatomy_of_turn {t : Turn} {x y : Clock × World σ}
    (h : turn stage runner t.place t.stack t.step w x.1 x.2 = (.done (t.outcome, t.failure), y)) :
    Anatomy stage runner w x t y := by
  obtain ⟨place, stack, step, o, f⟩ := t
  obtain ⟨c', s'⟩ := y
  unfold turn at h
  rw [Timed.bind_of_done (Timed.say_apply ..), Timed.bind_of_done (stage.tell_apply ..)] at h
  obtain ⟨⟨o', f'⟩, c₁, s₁, hstep, h⟩ := Timed.done_of_bind h
  obtain ⟨stem, old, requests, r, millis, a, d, b, b', hempty, hattempt, hcapture, htake, hf, ho, hy⟩ :=
    anatomy_of_step hstep
  simp only at h
  rw [Timed.bind_of_done (Timed.say_apply ..), Timed.bind_of_done (stage.tell_apply ..)] at h
  cases h
  obtain ⟨rfl, hs⟩ := Prod.mk.inj hy
  have anyone : Undisturbed fun _ : World σ => True := ⟨fun _ _ => trivial, fun _ _ => trivial⟩
  have endures : stage.Endures place fun _ => True := fun _ _ _ _ => trivial
  have captured := (maintains_captureAfter endures (fun _ _ _ _ => trivial) step.action stem r).before
    trivial hcapture
  have taken := (maintains_call anyone stage.browser.takeRequests).before trivial htake
  exact .mk hempty hattempt hcapture htake (captured.trans taken) hf ho (by rw [← hs]; rfl)

/-- Of an attempt that was over: the step could not be made ready, or it was under the watch of a
cancellation. -/
theorem attempt_cases {stem : String} {x y : Clock × World σ × Trace} {r : Except Failure Unit}
    (h : attempt stage runner place stack stem step w x.1 x.2 = (.done r, y)) :
    (∃ e, r = .error e ∧ stage.task x.2.1.desk x.2.1.scope step = .error e ∧ y.1 = x.1 ∧
        stage.GoesTo place x.2 y.2) ∨
      ∃ (task : Task) (z : Clock × World σ × Trace) (r' : Option (Except Failure Unit)),
        stage.task x.2.1.desk x.2.1.scope step = .ok task ∧ x.1.Before z.1 ∧
        stage.GoesTo place x.2 z.2 ∧ (task.unset = [] → z.2.1.page = x.2.1.page) ∧
        Timed.untilCancelled (guarded task
          (Perform.deed stage runner place stack stem task.timeout task.deed).run) w z.1 z.2 =
            (.done r', y) ∧ r = r'.getD (.error .cancelled) := by
  obtain ⟨c, s, t⟩ := x
  unfold attempt at h
  rw [Timed.bind_of_done (Timed.onFirst_of_done (Timed.desk_apply ..) t),
    Timed.bind_of_done (Timed.onFirst_of_done (Timed.scope_apply ..) t),
    Timed.bind_of_done (Timed.onFirst_of_done (Timed.say_apply ..) t)] at h
  have said : stage.GoesTo place (s, t) (s.say (stage.referenceLines s.scope step.instruction), t) :=
    .single (.acts (.say _))
  cases made : stage.task s.desk s.scope step with
  | error e =>
    rw [made] at h
    cases h
    exact .inl ⟨e, rfl, rfl, rfl, said⟩
  | ok task =>
    rw [made] at h
    obtain ⟨u, c₁, x₁, hwarn, h⟩ := Timed.done_of_bind h
    have warned := maintains_warnings (stage.endures_goesTo place (s, t)) task.unset
    obtain ⟨r', c₂, x₂, hwork, h⟩ := Timed.done_of_bind h
    refine .inr ⟨task, (c₁, x₁), r', rfl, warned.before said hwarn, warned.holds said hwarn, ?_, ?_, ?_⟩
    · intro hunset
      rw [hunset] at hwarn
      cases hwarn
      rfl
    · cases r' with
      | some r =>
        cases h
        exact hwork
      | none =>
        cases h
        exact hwork
    · cases r' with
      | some r =>
        cases h
        rfl
      | none =>
        cases h
        rfl

/-- Work that a step does by itself under its time limit goes where it would go without. -/
theorem goes_of_guarded {task : Task} {work : Work σ Unit} {c : Clock} {x : World σ × Trace}
    {y : Clock × World σ × Trace} {r : Except Failure Unit} (own : Work.Own stage place work)
    (h : guarded task work.run w c x = (.done r, y)) : stage.GoesTo place x y.2 :=
  (maintains_guarded (fun _ _ => trivial) (own.maintains x) task).holds .refl h

/-- A picture that was asked for is kept at the end, and only if it could be had. -/
theorem kept_of_guarded {action : Action} {timeout : Nat} {names : List String} {stem : String} {c : Clock}
    {x : World σ × Trace} {y : Clock × World σ × Trace} {r : Except Failure Unit}
    (h : guarded ⟨action, timeout, .screenshot, names⟩
      (Perform.deed stage runner place stack stem timeout .screenshot).run w c x = (.done r, y)) :
    ∃ z, stage.GoesTo place x z ∧ (y.2 = z ∨
      r = .ok () ∧ ∃ reference, y.2 = (z.1, { z.2 with screenshot := some reference })) := by
  have endures := stage.endures_goesTo place x
  have takes : ∀ w, Work.Brings w (stage.GoesTo place x)
      (fun _ y => ∃ z reference, stage.GoesTo place x z ∧
        y = (z.1, { z.2 with screenshot := some reference }))
      (fun _ => stage.GoesTo place x) (stage.GoesTo place x)
      (Perform.deed stage runner place stack stem timeout .screenshot) := by
    intro w
    refine .alongBind (Work.maintains_ask endures stage.tolerates_true (.screenshot false))
      (fun _ _ h => h) (fun _ h => h) fun png => ?_
    refine .alongBind (Work.maintains_storeScreenshot endures stage.tolerates_true _ png)
      (fun _ _ h => h) (fun _ h => h) fun stored => ?_
    refine .alongBind (Work.maintains_note endures _) (fun _ _ h => h) (fun _ h => h) fun _ => ?_
    exact fun c z goes => ⟨z, stored, goes, rfl⟩
  have kept : Timed.Brings w (stage.GoesTo place x)
      (fun r y => ∃ z, stage.GoesTo place x z ∧ (y = z ∨
        r = .ok () ∧ ∃ reference, y = (z.1, { z.2 with screenshot := some reference })))
      (stage.GoesTo place x)
      (guarded ⟨action, timeout, .screenshot, names⟩
        (Perform.deed stage runner place stack stem timeout .screenshot).run) := by
    refine Timed.Brings.bind (.within fun d => takes _) fun r => ?_
    rcases r with _ | e | u
    · refine .pure ?_
      rintro y (⟨_, ⟨⟩, -⟩ | ⟨-, goes⟩)
      exact ⟨y, goes, .inl rfl⟩
    · refine .pure ?_
      rintro y (⟨_, ⟨⟩, goes⟩ | ⟨⟨⟩, -⟩)
      exact ⟨y, goes, .inl rfl⟩
    · refine .pure ?_
      rintro y (⟨_, ⟨⟩, z, reference, goes, rfl⟩ | ⟨⟨⟩, -⟩)
      exact ⟨z, goes, .inr ⟨rfl, reference, rfl⟩⟩
  exact kept.left .refl h

theorem run_runScenario (id stem : String) (timeout : Nat) (w : Watch) (c : Clock) (s : World σ)
    (t : Trace) :
    (Perform.deed stage runner place stack stem timeout (.runScenario id)).run w c (s, t) =
      (Login.perform runner place stack id).run w c
        (s.say [.info ("↪️ 进入子场景: " ++ id)], { t with selector := some id }) := rfl

/-- A scenario that was performed was refused, or it was played and its report settled. -/
theorem answer_of_perform {id : String} {x y : Clock × World σ × Trace} {r : Except Failure Unit}
    (h : (Login.perform runner place stack id).run w x.1 x.2 = (.done r, y)) :
    (∃ e, r = .error e ∧ y.2.2 = x.2.2 ∧
      runner id stack place.depth w x.1 x.2.1 = (.done (.error e), y.1, y.2.1)) ∨
    ∃ report, r = report.settle id ∧
      y.2.2 = { x.2.2 with children := x.2.2.children ++ report.outcomes } ∧
      runner id stack place.depth w x.1 x.2.1 = (.done (.ok report), y.1, y.2.1) := by
  obtain ⟨c, s, t⟩ := x
  obtain ⟨c', s', t'⟩ := y
  obtain ⟨answer, c₁, ⟨s₁, t₁⟩, hrunner, h⟩ := Timed.done_of_bind h
  obtain ⟨hrunner, ht⟩ := Timed.done_of_onFirst hrunner
  simp only at ht
  subst ht
  cases answer with
  | error e =>
    cases h
    exact .inl ⟨e, rfl, rfl, hrunner⟩
  | ok report =>
    have hsettle : (Work.settle report id : Work σ Unit).run w c₁ (s₁, t₁) = (.done r, c', s', t') := h
    rw [settle_apply] at hsettle
    cases hsettle
    exact .inr ⟨report, rfl, rfl, hrunner⟩

/-- A step that only has a scenario played does so under no time limit. -/
theorem undergone_of_runScenario {id stem : String} {action : Action} {timeout : Nat} {names : List String}
    {x z y : Clock × World σ × Trace} {r : Except Failure Unit}
    (instruction : step.instruction = .runScenario id) (goes : stage.GoesTo place x.2 z.2)
    (idle : z.2.1.page = x.2.1.page)
    (h : guarded ⟨action, timeout, .runScenario id, names⟩
      (Perform.deed stage runner place stack stem timeout (.runScenario id)).run w z.1 z.2 =
        (.done r, y)) : Undergone stage runner place stack step x r y := by
  obtain ⟨c, s, t⟩ := z
  have before : stage.GoesTo place (s, t) (s.say [.info ("↪️ 进入子场景: " ++ id)],
      { t with selector := some id }) :=
    .tail (.single (.acts (.say _))) (.acts (.selector id))
  have unguarded : ∀ work : Timed (World σ × Trace) (Except Failure Unit),
      guarded ⟨action, timeout, .runScenario id, names⟩ work = work := fun _ => rfl
  rw [unguarded, run_runScenario] at h
  have reference : step.instruction.reference? = some id := by
    rw [instruction]
    rfl
  refine .plays (a := (c, _)) reference (goes.trans before) (fun _ => idle) h (.refl _) .refl ?_
  rintro e rfl
  refine ⟨?_, fun _ => rfl⟩
  rw [Step.passOn, instruction]

/-- A step that makes sure of a login does it alone, or it has the login scenario played. -/
theorem undergone_of_ensures {rule : LoginRule} {login : LoginTask} {timeout : Nat}
    {x z y : Clock × World σ × Trace} {r : Except Failure Unit}
    (instruction : step.instruction = .ensureLogin rule) (same : login.loginScenario = rule.loginScenario)
    (goes : stage.GoesTo place x.2 z.2)
    (h : Login.Ensures stage place login timeout w runner stack z r y) :
    Undergone stage runner place stack step x r y := by
  have reference : step.instruction.reference? = some login.loginScenario := by
    rw [instruction, same]
    rfl
  have logs : ¬ ∀ rule, step.instruction ≠ .ensureLogin rule := fun h => h rule instruction
  cases h with
  | halts own => exact .alone (goes.trans own) (.inl rfl)
  | found before visited authenticated last own => exact .alone (goes.trans own) (.inl rfl)
  | @fails e a b y lacking performed later after atOnce =>
    refine .plays reference (goes.trans lacking.goes) (fun h => absurd h logs) performed later after ?_
    rintro _ ⟨⟩
    refine ⟨?_, atOnce⟩
    rw [Step.passOn, instruction, same]
  | breaks lacking performed later after =>
    exact .plays reference (goes.trans lacking.goes) (fun h => absurd h logs) performed later after
      (by simp)
  | logsIn lacking performed saved visited last later after =>
    exact .plays reference (goes.trans lacking.goes) (fun h => absurd h logs) performed later after
      (by simp)

/-- What an attempt was in a run that was not cancelled up to its end. -/
theorem undergone_of_attempt
    (ends : ∀ id stack depth, Maintains (fun _ => True) (Blames fun _ => True) (runner id stack depth))
    {stem : String} {x y : Clock × World σ × Trace} {r : Except Failure Unit}
    (h : attempt stage runner place stack stem step w x.1 x.2 = (.done r, y))
    (calm : y.1.isCancelled = false) : Undergone stage runner place stack step x r y := by
  obtain ⟨e, -, -, -, goes⟩ | ⟨task, z, r', made, -, goes, idle, hwork, hr⟩ := attempt_cases h
  · exact .alone goes (.inl rfl)
  have watched : Maintains (fun _ => True) (Answers Whatever fun _ => True)
      (guarded task (Perform.deed stage runner place stack stem task.timeout task.deed).run) :=
    maintains_guarded (fun _ _ => trivial)
      (Perform.maintains_deed stage.lasting_true.toStable stage.tolerates_true
        (fun id _ => ends id stack place.depth) stem task.timeout) task
  obtain ⟨r', rfl, done⟩ := Timed.done_of_calm watched trivial hwork calm
  rw [Option.getD_some] at hr
  subst hr
  have unset : ∀ id, step.instruction = .runScenario id → task.unset = [] :=
    fun _ => Bench.unset_of_runScenario made
  obtain ⟨makes, -⟩ := Bench.makes_of_task made
  obtain ⟨action, timeout, deed, names⟩ := task
  simp only at makes done idle unset
  generalize hinstruction : step.instruction = instruction at makes
  cases makes with
  | reads target saveAs =>
    have own : Work.Own stage place (Perform.deed stage runner place stack stem timeout
        (.extract (stage.selectors.resolve (x.2.1.scope.fill target)) saveAs)) :=
      ⟨fun x => Perform.maintains_extract (stage.endures_goesTo place x) stage.tolerates_true
        (fun _ _ scope goes => goes.tail (.sets scope)) _ saveAs timeout⟩
    exact .alone (goes.trans (goes_of_guarded own done)) (.inl rfl)
  | plays id => exact undergone_of_runScenario hinstruction goes (idle (unset id hinstruction)) done
  | logsIn same => exact undergone_of_ensures hinstruction same goes (Login.ensures_of_done (x := z) done)
  | neither plays refers reads unread =>
    by_cases hdeed : deed = .screenshot
    · subst hdeed
      obtain ⟨z', goes', kept⟩ := kept_of_guarded done
      exact .alone (goes.trans goes') kept
    · have own : Work.Own stage place (Perform.deed stage runner place stack stem timeout deed) :=
        ⟨fun x => Perform.maintains_own (stage.endures_goesTo place x) stage.tolerates_true
          (fun h => absurd h hdeed) plays reads runner stack stem timeout⟩
      exact .alone (goes.trans (goes_of_guarded own done)) (.inl rfl)

section

variable (stage)

/-- A turn that was really taken. -/
def Took (t : Turn) : Prop :=
  ∃ (runner : Runner σ) (w : Watch) (x y : Clock × World σ), IsRunner stage runner ∧
    turn stage runner t.place t.stack t.step w x.1 x.2 = (.done (t.outcome, t.failure), y)

/-- The turns that are added to the record were really taken. -/
def Adds (s s' : World σ) : Prop := ∃ new, s'.turns = s.turns ++ new ∧ ∀ t ∈ new, Took stage t

variable {stage}

theorem IsRunner.ends (h : IsRunner stage runner) (id : String) (stack : CallStack) (depth : Nat) :
    Maintains (fun _ => True) (Blames fun _ => True) (runner id stack depth) := by
  cases h with
  | whole => exact runner_ends stage id stack depth
  | nested fuel => exact nested_ends stage fuel id stack depth

theorem Adds.of_eq {s s' : World σ} (h : s'.turns = s.turns) : Adds stage s s' :=
  ⟨[], by rw [h, List.append_nil], by simp⟩

theorem Adds.trans {s s' s'' : World σ} (h : Adds stage s s') (h' : Adds stage s' s'') :
    Adds stage s s'' := by
  obtain ⟨new, hnew, took⟩ := h
  obtain ⟨more, hmore, took'⟩ := h'
  exact ⟨new ++ more, by rw [hmore, hnew, List.append_assoc], List.forall_mem_append.mpr ⟨took, took'⟩⟩

/-- From one world to the other these turns were taken, and no step has begun besides. -/
structure Counts (s : World σ) (new : List Turn) (s' : World σ) : Prop where
  turns : s'.turns = s.turns ++ new
  begun : s'.begun = s.begun + new.length

theorem Counts.refl_of {s s' : World σ} (turns : s'.turns = s.turns) (begun : s'.begun = s.begun) :
    Counts s [] s' :=
  ⟨by rw [turns, List.append_nil], begun⟩

theorem Counts.trans {s s' s'' : World σ} {new more : List Turn} (h : Counts s new s')
    (h' : Counts s' more s'') : Counts s (new ++ more) s'' := by
  refine ⟨by rw [h'.turns, h.turns, List.append_assoc], ?_⟩
  rw [h'.begun, h.begun, List.length_append, Nat.add_assoc]

/-- What a step does by itself is no turn, before a scenario that it has played and after it. -/
theorem Counts.amid {x a b y : World σ × Trace} {new : List Turn} (before : stage.GoesTo place x a)
    (h : Counts a.1 new b.1) (after : stage.GoesTo place b y) : Counts x.1 new y.1 := by
  obtain ⟨begun, turns, -⟩ := before.stays
  obtain ⟨begun', turns', -⟩ := after.stays
  exact ⟨by rw [turns', h.turns, turns], by rw [begun', h.begun, begun]⟩

/-- Besides what was played in it, a turn adds itself, whatever comes before and after the attempt. -/
theorem Counts.turn {x a d : Clock × World σ} {b b' : Clock × World σ × Trace} {t : Turn} {stem : String}
    {old requests : List NetworkRequest} {r : Except Failure Unit} {new : List Turn}
    (counts : Counts a.2 new b.2.1)
    (emptied : stage.browser.takeRequests.run w x.1 (stage.opens t.place t.step x.2) = (.done old, a))
    (captured : captureAfter stage t.step.action stem r w b.1 b.2 = (.done (), b'))
    (taken : stage.browser.takeRequests.run w b'.1 b'.2.1 = (.done requests, d)) :
    Counts x.2 (new ++ [t]) (stage.closes t (stage.complaint t.place r (d.2, b'.2.2)).1) := by
  have opened : (stage.opens t.place t.step x.2).Resembles a.2 := resembles_of_run emptied
  have pictured : b'.2.1.turns = b.2.1.turns ∧ b'.2.1.begun = b.2.1.begun := by
    have firm : stage.Firm t.place fun y => y.1.turns = b.2.1.turns ∧ y.1.begun = b.2.1.begun := by
      intro y z move h
      obtain ⟨_, moved⟩ := move.moved
      exact ⟨moved.turns.trans h.1, moved.begun.trans h.2⟩
    exact (maintains_captureAfter firm.endures firm.shown _ _ _).holds ⟨rfl, rfl⟩ captured
  have emptied' : b'.2.1.Resembles d.2 := resembles_of_run taken
  obtain ⟨-, turns, begun, -⟩ := stage.complaint_keeps t.place r (d.2, b'.2.2)
  constructor
  · rw [stage.turns_closes, turns, emptied'.turns, pictured.1, counts.turns, opened.turns,
      stage.turns_opens, List.append_assoc]
  · rw [stage.begun_closes, begun, emptied'.begun, pictured.2, counts.begun, opened.begun,
      stage.begun_opens, List.length_append, List.length_singleton]
    omega

theorem Turned.taken {id : String} {depth index : Nat} {t : Turn} {x y : Clock × World σ}
    (h : Turned stage runner id stack depth w index step x t y) :
    turn stage runner t.place t.stack t.step w x.1 x.2 = (.done (t.outcome, t.failure), y) := by
  rw [h.2.1, h.2.2.1]
  exact h.2.2.2

theorem Turned.before {id : String} {depth index : Nat} {t : Turn} {x y : Clock × World σ}
    (h : Turned stage runner id stack depth w index step x t y) (isRunner : IsRunner stage runner) :
    x.1.Before y.1 := by
  have ends : Maintains (fun _ => True) (fun _ => ∀ e, _ = some e → True)
      (turn stage runner t.place t.stack t.step) :=
    maintains_turn stage.lasting_true stage.excuses_true fun id _ =>
      isRunner.ends id t.stack t.place.depth
  exact ends.before trivial h.taken

theorem Played.before {id : String} {depth index : Nat} {steps : List Step} {x y : Clock × World σ}
    {played : List Turn} {r : Report}
    (h : Played stage runner id stack depth w index steps x played r y)
    (isRunner : IsRunner stage runner) : x.1.Before y.1 := by
  induction h with
  | all => exact .refl _
  | cancelledBefore seen => exact .refl _
  | onward turned goesOn later ih => exact (turned.before isRunner).trans ih
  | fatal turned => exact turned.before isRunner
  | cancelled turned => exact turned.before isRunner
  | stopped turned => exact turned.before isRunner

section

variable (does : Does (fun _ _ _ _ x _ y => Adds stage x.2 y.2) runner)

include does

theorem Course.adds {r : Option (Except Failure Unit)} {x y : World σ × Trace}
    (h : Course stage runner place stack step x r y) : Adds stage x.1 y.1 := by
  obtain ⟨a, b, _, _, first, happens, last⟩ := h.moved
  refine (Adds.of_eq first.turns).trans (.trans ?_ (Adds.of_eq last.turns))
  cases happens with
  | nothing unread => exact .of_eq rfl
  | reads instruction found noted succeeded => exact .of_eq rfl
  | plays reference plays bears =>
    cases plays with
    | refused watched answer => exact does answer
    | settled watched answer => exact does answer
    | givenUp watched dropped left => exact does dropped

theorem Ends.adds {s s' : World σ} {t : Turn} (h : Ends stage runner w s t s') (took : Took stage t) :
    Adds stage s s' := by
  obtain @⟨r, trace, s₁, millis, requests, attempted, -, -⟩ := h
  obtain ⟨r', course⟩ := attempted.tried.ended
  obtain ⟨new, hnew, took'⟩ := course.adds does
  refine ⟨new ++ [t], ?_, List.forall_mem_append.mpr ⟨took', List.forall_mem_singleton.mpr took⟩⟩
  rw [stage.turns_closes, hnew, stage.turns_opens, List.append_assoc]

variable (isRunner : IsRunner stage runner)

include isRunner

theorem Turned.adds {id : String} {depth index : Nat} {t : Turn} {x y : Clock × World σ}
    (h : Turned stage runner id stack depth w index step x t y) : Adds stage x.2 y.2 := by
  exact h.ends.adds does ⟨runner, w, x, y, isRunner, h.taken⟩

theorem Row.adds {id : String} {depth index : Nat} {s s' : World σ} {played : List Turn}
    (h : Row stage runner id stack depth w index s played s') : Adds stage s s' := by
  induction h with
  | none => exact .of_eq rfl
  | next turned later ih => exact (turned.adds does isRunner).trans ih

theorem Entered.adds {id : String} {depth : Nat} {x y : Clock × World σ}
    {e : Exit (Except Failure Report)} (h : Entered stage runner id stack depth w x e y) :
    Adds stage x.2 y.2 := by
  cases h with
  | refused lines => exact .of_eq rfl
  | played off loaded played => exact played.row.adds does isRunner
  | parted off loaded left parted =>
    obtain ⟨-, step, s₁, -, row, breaks⟩ := parted
    obtain ⟨trace, r, course⟩ := breaks.course
    exact (row.adds does isRunner).trans
      ((Adds.of_eq (stage.turns_opens _ step s₁)).trans (course.adds does))

end

theorem runner_adds (stage : Stage σ) :
    Does (fun _ _ _ _ x _ y => Adds stage x.2 y.2) (Play.runner stage) :=
  runner_does (.of_eq rfl) fun isRunner does _ _ _ _ _ _ _ entered => entered.adds does isRunner

end

end Play

/-- Whatever becomes of a run, the turns in its record were really taken. -/
theorem Run.every_turn (stage : Stage σ) (scenario : Scenario) (runId : String) (c : Clock)
    (s : World σ) :
    ∃ record c' s' new, (run stage scenario runId).run c s = (some record, c', s') ∧
      s'.turns = s.turns ++ new ∧ ∀ t ∈ new, Play.Took stage t := by
  cases h : (Preflight.check stage.scenarios s.desk scenario).1 with
  | error e =>
    obtain ⟨record, c', s', hrun, -, hturns, -⟩ := run_refused h runId c
    exact ⟨record, c', s', [], hrun, by rw [hturns, List.append_nil], by simp⟩
  | ok u =>
    obtain ⟨record, c', s', s₀, c₁, s₁, played, report, hrun, begins, hplayed, -, -, concludes⟩ :=
      run_judged h runId c
    obtain ⟨new, hnew, took⟩ := hplayed.row.adds (Play.runner_adds stage) .whole
    refine ⟨record, c', s', new, hrun, ?_, took⟩
    rw [concludes.turns, hnew, begins.turns]

end Rehearsal
