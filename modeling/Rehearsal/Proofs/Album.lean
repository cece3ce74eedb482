import Rehearsal.Proofs.Pictures

/-! # The pictures of a run

Every step has its number before anything that is played in it, in the order in which the starts of steps
are told. Its pictures bear its number, also where they are given to the sink after those of steps with
greater numbers. So no two pictures of a run share a name, and in the record each outcome refers to a
picture of its own step or to none.
-/
namespace Rehearsal

variable {σ : Type}

/-- From `x` to `y` steps were begun no less than `depth` deep, and the pictures are theirs, each under a
name of its own. -/
structure Stage.Gathers (stage : Stage σ) (depth : Nat) (began : List Begun) (pictures : List Picture)
    (x y : World σ) : Prop where
  passes : stage.Passes began pictures x y
  deep : ∀ b ∈ began, depth ≤ b.place.depth
  named : ∀ p ∈ pictures, ∃ b ∈ began, Play.Named b.number b.step.action p.name
  apart : (pictures.map (·.name)).Nodup

/-- Pictures of steps with other numbers have other names. -/
theorem Play.apart_append {pictures others : List Picture} {P Q : Nat → Prop}
    (apart : (pictures.map (·.name)).Nodup) (apart' : (others.map (·.name)).Nodup)
    (named : ∀ p ∈ pictures, ∃ number action, P number ∧ Named number action p.name)
    (named' : ∀ p ∈ others, ∃ number action, Q number ∧ Named number action p.name)
    (other : ∀ number, P number → ¬Q number) : ((pictures ++ others).map (·.name)).Nodup := by
  rw [List.map_append]
  refine apart.append apart' ?_
  intro name hname hname'
  obtain ⟨p, hp, rfl⟩ := List.mem_map.mp hname
  obtain ⟨q, hq, hsame⟩ := List.mem_map.mp hname'
  obtain ⟨number, action, hP, hp⟩ := named p hp
  obtain ⟨number', action', hQ, hq⟩ := named' q hq
  have hnumber := hp.number_eq (hsame ▸ hq)
  exact other number hP (hnumber ▸ hQ)

theorem Stage.Passes.number_mem {stage : Stage σ} {began : List Begun} {pictures : List Picture}
    {x y : World σ} (h : stage.Passes began pictures x y) {b : Begun} (hb : b ∈ began) :
    x.begun < b.number ∧ b.number ≤ y.begun := by
  have hmem : b.number ∈ List.range' (x.begun + 1) began.length :=
    h.numbers ▸ List.mem_map_of_mem hb
  have hbounds := List.mem_range'_1.mp hmem
  have hbegun := h.begun
  omega

namespace Stage.Gathers

variable {stage : Stage σ} {depth : Nat} {began more : List Begun} {pictures others : List Picture}
  {x y z : World σ}

theorem of_passes (h : stage.Passes [] [] x y) : stage.Gathers depth [] [] x y :=
  ⟨h, by simp, by simp, .nil⟩

theorem trans (h : stage.Gathers depth began pictures x y) (h' : stage.Gathers depth more others y z) :
    stage.Gathers depth (began ++ more) (pictures ++ others) x z where
  passes := h.passes.trans h'.passes
  deep := List.forall_mem_append.mpr ⟨h.deep, h'.deep⟩
  named := by
    intro p hp
    rcases List.mem_append.mp hp with hp | hp
    · obtain ⟨b, hb, named⟩ := h.named p hp
      exact ⟨b, List.mem_append_left _ hb, named⟩
    · obtain ⟨b, hb, named⟩ := h'.named p hp
      exact ⟨b, List.mem_append_right _ hb, named⟩
  apart := by
    refine Play.apart_append (P := (· ≤ y.begun)) (Q := (y.begun < ·)) h.apart h'.apart ?_ ?_
      fun number => Nat.not_lt.mpr
    · intro p hp
      obtain ⟨b, hb, named⟩ := h.named p hp
      exact ⟨b.number, b.step.action, (h.passes.number_mem hb).2, named⟩
    · intro p hp
      obtain ⟨b, hb, named⟩ := h'.named p hp
      exact ⟨b.number, b.step.action, (h'.passes.number_mem hb).1, named⟩

end Stage.Gathers

/-- The outcome is that of the step, and the picture it refers to is one of the step's own, by the reference
that the sink has answered with. -/
structure Begun.Shown (b : Begun) (pictures : List Picture) (o : Outcome) : Prop where
  index : o.index = b.place.index
  action : o.action = b.step.action
  name : o.name = b.step.name
  picture : ∀ reference, o.screenshot = some reference →
    ∃ p ∈ pictures, Play.Named b.number b.step.action p.name ∧ p.answer = .ok reference

theorem Begun.Shown.mono {b : Begun} {pictures more : List Picture} {o : Outcome} (h : b.Shown pictures o)
    (hmore : pictures ⊆ more) : b.Shown more o := by
  refine ⟨h.index, h.action, h.name, fun reference hreference => ?_⟩
  obtain ⟨p, hp, own⟩ := h.picture reference hreference
  exact ⟨p, hmore hp, own⟩

namespace Play

/-- The outcomes of a scenario `depth` deep are those of the steps that were begun, in the order of their
beginnings, each followed by the steps that were begun inside it. Where these have left no outcomes their
scenario was given up. -/
inductive Depicts (pictures : List Picture) : Nat → List Outcome → List Begun → Prop
  | none {depth : Nat} : Depicts pictures depth [] []
  | skipped {depth : Nat} {o : Outcome} {os : List Outcome} {bs : List Begun} (status : o.status = .skipped)
    (unseen : o.screenshot = none) (childless : o.children = []) (later : Depicts pictures depth os bs) :
    Depicts pictures depth (o :: os) bs
  | played {depth : Nat} {o : Outcome} {os : List Outcome} {b : Begun} {inner bs : List Begun}
    (here : b.place.depth = depth) (shown : b.Shown pictures o)
    (inside : ∀ b' ∈ inner, depth < b'.place.depth)
    (children : o.children ≠ [] → Depicts pictures (depth + 1) o.children inner)
    (later : Depicts pictures depth os bs) : Depicts pictures depth (o :: os) (b :: inner ++ bs)

theorem Depicts.mono {pictures more : List Picture} {depth : Nat} {os : List Outcome} {bs : List Begun}
    (h : Depicts pictures depth os bs) (hmore : pictures ⊆ more) : Depicts more depth os bs := by
  induction h with
  | none => exact .none
  | skipped status unseen childless later ih => exact .skipped status unseen childless ih
  | played here shown inside children later ih ih' => exact .played here (shown.mono hmore) inside ih ih'

theorem Depicts.all_skipped (pictures : List Picture) (depth index : Nat) (steps : List Step) :
    Depicts pictures depth (Report.skippedFrom index steps) [] := by
  induction steps generalizing index with
  | nil => exact .none
  | cons step rest ih => exact .skipped rfl rfl rfl (ih (index + 1))

/-- What is known of the pictures of a scenario, whatever became of it. -/
abbrev Picturing (stage : Stage σ) : Conduct σ := fun _ _ depth _ x e y =>
  ∃ began pictures, stage.Gathers (depth + 1) began pictures x.2 y.2 ∧
    (outcomesOf e ≠ [] → Depicts pictures (depth + 1) (outcomesOf e) began)

section

variable {stage : Stage σ} {runner : Runner σ} {place : Place} {stack : CallStack} {step : Step}
  {w : Watch} (does : Does (Picturing stage) runner)

include does

/-- The pictures of the scenario that was played come before those of the step itself. -/
theorem Tour.gathers {own : List Picture} {x y : World σ × Trace}
    (h : Tour stage runner place stack own x y) :
    ∃ inner pictures m children, stage.Gathers (place.depth + 1) inner pictures x.1 m ∧
      stage.Passes [] own m y.1 ∧ y.2.children = x.2.children ++ children ∧
      (children ≠ [] → Depicts pictures (place.depth + 1) children inner) ∧
      (y.2.screenshot = x.2.screenshot ∨
        ∃ p ∈ own, ∃ reference, p.answer = .ok reference ∧ y.2.screenshot = some reference) := by
  cases h with
  | alone shoots =>
    refine ⟨[], [], x.1, [], .of_passes (.refl _), shoots.passes, ?_, by simp, shoots.screenshot⟩
    rw [List.append_nil]
    exact shoots.children
  | @plays id w c c' e a b before ran kept after =>
    obtain ⟨inner, pictures, gathers, depicts⟩ := does ran
    have till := (Stage.Gathers.of_passes before.passes).trans gathers
    refine ⟨inner, pictures, b.1, outcomesOf e, till, after.passes, ?_, depicts, ?_⟩
    · rw [after.children, kept, before.children]
    · have same : b.2.screenshot = x.2.screenshot := by
        rw [kept]
        rcases before.screenshot with same | ⟨p, hp, -⟩
        · exact same
        · cases hp
      rw [← same]
      exact after.screenshot

/-- The step that a turn was taken for has the least number of those begun in it. -/
theorem Toured.gathers {x y : World σ} {trace : Trace}
    (h : Toured stage runner place stack (names (x.begun + 1) step.action) (stage.opens place step x, .empty)
      (y, trace)) :
    ∃ inner pictures, stage.Gathers place.depth (⟨x.begun + 1, place, step⟩ :: inner) pictures x y ∧
      (∀ b ∈ inner, place.depth < b.place.depth) ∧
      (trace.children ≠ [] → Depicts pictures (place.depth + 1) trace.children inner) ∧
      ∀ reference, trace.screenshot = some reference →
        ∃ p ∈ pictures, Named (x.begun + 1) step.action p.name ∧ p.answer = .ok reference := by
  obtain ⟨own, hown, tour⟩ := h
  obtain ⟨inner, pictures, m, children, gathers, passes, hchildren, depicts, kept⟩ := tour.gathers does
  have hchildren : trace.children = children := hchildren
  have named : ∀ p ∈ own, Named (x.begun + 1) step.action p.name :=
    fun p hp => named_of_mem (hown.subset (List.mem_map_of_mem hp))
  refine ⟨inner, pictures ++ own, ⟨?_, ?_, ?_, ?_⟩, gathers.deep, fun hne => ?_,
    fun reference hreference => ?_⟩
  · have whole := (Stage.Passes.opens stage place step x).trans (gathers.passes.trans passes)
    simpa using whole
  · refine List.forall_mem_cons.mpr ⟨Nat.le_refl _, fun b hb => ?_⟩
    exact Nat.le_of_lt (gathers.deep b hb)
  · intro p hp
    rcases List.mem_append.mp hp with hp | hp
    · obtain ⟨b, hb, hname⟩ := gathers.named p hp
      exact ⟨b, List.mem_cons_of_mem _ hb, hname⟩
    · exact ⟨_, List.mem_cons_self, named p hp⟩
  · refine apart_append (P := (x.begun + 1 < ·)) (Q := (· = x.begun + 1)) gathers.apart
      (hown.nodup (nodup_names _ _)) ?_ (fun p hp => ⟨_, _, rfl, named p hp⟩) fun number => Nat.ne_of_gt
    intro p hp
    obtain ⟨b, hb, hnamed⟩ := gathers.named p hp
    have hlt := (gathers.passes.number_mem hb).1
    rw [stage.begun_opens] at hlt
    exact ⟨b.number, b.step.action, hlt, hnamed⟩
  · rw [hchildren] at hne ⊢
    exact (depicts hne).mono (List.subset_append_left ..)
  · rcases kept with same | ⟨p, hp, reference', answered, hkept⟩
    · have hnone : trace.screenshot = none := same
      rw [hnone] at hreference
      cases hreference
    · have hkept : trace.screenshot = some reference' := hkept
      rw [hreference] at hkept
      cases hkept
      exact ⟨p, List.mem_append_right _ hp, named p hp, answered⟩

theorem Turned.gathers {id : String} {depth index : Nat} {t : Turn} {x y : Clock × World σ}
    (h : Turned stage runner id stack depth w index step x t y) :
    ∃ b inner pictures, stage.Gathers depth (b :: inner) pictures x.2 y.2 ∧ b.place.depth = depth ∧
      b.Shown pictures t.outcome ∧ (∀ b' ∈ inner, depth < b'.place.depth) ∧
      (t.outcome.children ≠ [] → Depicts pictures (depth + 1) t.outcome.children inner) := by
  obtain ⟨place, stack', step', outcome, failure⟩ := t
  obtain ⟨c', s'⟩ := y
  obtain ⟨rfl, rfl, rfl, h⟩ := h
  obtain ⟨m, trace, millis, requests, toured, houtcome, rfl⟩ :=
    (brings_turn_toured stage runner ⟨id, index, depth⟩ stack' step' w x.2).left rfl h
  simp only at houtcome
  obtain ⟨inner, pictures, gathers, inside, depicts, kept⟩ := toured.gathers does
  refine ⟨⟨x.2.begun + 1, ⟨id, index, depth⟩, step'⟩, inner, pictures, ?_, rfl, ?_, inside, ?_⟩
  · have closed := gathers.trans
      (.of_passes (.closes stage ⟨⟨id, index, depth⟩, stack', step', outcome, failure⟩ m))
    simpa using closed
  · subst houtcome
    exact ⟨rfl, rfl, rfl, kept⟩
  · subst houtcome
    exact depicts

theorem Breaks.gathers {s s' : World σ} (h : Breaks stage runner place stack step w s s') :
    ∃ began pictures, stage.Gathers place.depth began pictures s s' := by
  obtain ⟨c, c', e, h, left⟩ := h
  have toured := (brings_turn_toured stage runner place stack step w s).left rfl h
  have toured : ∃ trace, Toured stage runner place stack (names (s.begun + 1) step.action)
      (stage.opens place step s, .empty) (s', trace) := by
    cases e with
    | done a => exact absurd rfl (left a)
    | cancelled => exact toured
    | expired => exact toured
  obtain ⟨trace, toured⟩ := toured
  obtain ⟨inner, pictures, gathers, -⟩ := toured.gathers does
  exact ⟨_, pictures, gathers⟩

section

variable {id : String} {depth index : Nat}

theorem Row.gathers {s s' : World σ} {played : List Turn}
    (h : Row stage runner id stack depth w index s played s') :
    ∃ began pictures, stage.Gathers depth began pictures s s' := by
  induction h with
  | none => exact ⟨[], [], .of_passes (.refl _)⟩
  | next turned later ih =>
    obtain ⟨b, inner, pictures, first, -⟩ := turned.gathers does
    obtain ⟨began, others, rest⟩ := ih
    exact ⟨_, _, first.trans rest⟩

/-- The outcome of a turn stands before those of the turns after it. -/
theorem Turned.depicts {s : World σ} {os : List Outcome} {began : List Begun} {others : List Picture}
    {t : Turn} {x y : Clock × World σ} (h : Turned stage runner id stack depth w index step x t y)
    (rest : stage.Gathers depth began others y.2 s) (later : Depicts others depth os began) :
    ∃ began pictures, stage.Gathers depth began pictures x.2 s ∧
      Depicts pictures depth (t.outcome :: os) began := by
  obtain ⟨b, inner, pictures, gathers, here, shown, inside, children⟩ := h.gathers does
  refine ⟨b :: inner ++ began, pictures ++ others, gathers.trans rest, ?_⟩
  have first := List.subset_append_left pictures others
  exact .played here (shown.mono first) inside (fun hne => (children hne).mono first)
    (later.mono (List.subset_append_right ..))

theorem Played.depicts {steps : List Step} {x y : Clock × World σ} {played : List Turn} {report : Report}
    (h : Played stage runner id stack depth w index steps x played report y) :
    ∃ began pictures, stage.Gathers depth began pictures x.2 y.2 ∧
      Depicts pictures depth report.outcomes began := by
  have last : ∀ {x y : Clock × World σ} {index : Nat} {step : Step} {rest : List Step} {t : Turn},
      Turned stage runner id stack depth w index step x t y →
      ∃ began pictures, stage.Gathers depth began pictures x.2 y.2 ∧
        Depicts pictures depth (t.outcome :: Report.skippedFrom (index + 1) rest) began :=
    fun turned => turned.depicts does (.of_passes (.refl _)) (.all_skipped ..)
  induction h with
  | all => exact ⟨[], [], .of_passes (.refl _), .none⟩
  | cancelledBefore seen => exact ⟨[], [], .of_passes (.refl _), .all_skipped ..⟩
  | onward turned goesOn later ih =>
    obtain ⟨began, pictures, rest, depicts⟩ := ih
    exact turned.depicts does rest depicts
  | fatal turned failure isFatal => exact last turned
  | cancelled turned failure => exact last turned
  | stopped turned failure mild own stops => exact last turned

theorem Entered.picturing {x y : Clock × World σ} {e : Exit (Except Failure Report)}
    (h : Entered stage runner id stack depth w x e y) : Picturing stage id stack depth w x e y := by
  have said : ∀ (s : World σ) (lines : List LogLine), stage.Gathers (depth + 1) [] [] s (s.say lines) :=
    fun s lines => .of_passes (.of_eq rfl rfl rfl)
  cases h with
  | refused lines => exact ⟨[], [], said x.2 lines, fun hne => absurd rfl hne⟩
  | @played scenario lines lines' y turns report off loaded played =>
    obtain ⟨began, pictures, gathers, depicts⟩ := played.depicts does
    refine ⟨began, pictures, ?_, fun _ => depicts⟩
    have whole := ((said x.2 lines).trans gathers).trans (said y.2 lines')
    simpa using whole
  | @parted scenario lines e turns y off loaded left parted =>
    obtain ⟨-, step, s₁, -, row, breaks⟩ := parted
    obtain ⟨began, pictures, gathers⟩ := row.gathers does
    obtain ⟨began', pictures', gathers'⟩ := breaks.gathers does
    refine ⟨_, _, ((said x.2 lines).trans gathers).trans gathers', fun hne => ?_⟩
    rcases e with a | _ | _
    · exact absurd rfl (left a)
    · exact absurd rfl hne
    · exact absurd rfl hne

end

end

theorem runner_picturing (stage : Stage σ) : Does (Picturing stage) (Play.runner stage) :=
  runner_does ⟨[], [], .of_passes (.refl _), fun hne => absurd rfl hne⟩
    fun _ does _ _ _ _ _ _ _ entered => entered.picturing does

/-- How a turn has come to its end after its tour, or was given up on it. -/
inductive Finishes (stage : Stage σ) (place : Place) (stack : CallStack) (step : Step) (m : World σ)
    (trace : Trace) : Exit (Outcome × Option Failure) → World σ → Prop
  | over (failure : Option Failure) (millis : Nat) (requests : List NetworkRequest) :
    Finishes stage place stack step m trace
      (.done (trace.outcome place step failure millis requests, failure))
      (stage.closes ⟨place, stack, step, trace.outcome place step failure millis requests, failure⟩ m)
  | left {e : Exit (Outcome × Option Failure)} (left : ∀ a, e ≠ .done a) :
    Finishes stage place stack step m trace e m

/-- A step gives pictures to the sink under the two names with its own number at most, each once. -/
theorem toured_of_turn {stage : Stage σ} {runner : Runner σ} {place : Place} {stack : CallStack} {step : Step}
    {w : Watch} {x y : Clock × World σ} {e : Exit (Outcome × Option Failure)}
    (h : turn stage runner place stack step w x.1 x.2 = (e, y)) :
    ∃ m trace, Toured stage runner place stack (names (x.2.begun + 1) step.action)
        (stage.opens place step x.2, .empty) (m, trace) ∧ Finishes stage place stack step m trace e y.2 := by
  have brought := (brings_turn_toured stage runner place stack step w x.2).left rfl h
  obtain ⟨c', s'⟩ := y
  rcases e with ⟨outcome, failure⟩ | _ | _
  · obtain ⟨m, trace, millis, requests, toured, houtcome, rfl⟩ := brought
    simp only at houtcome
    subst houtcome
    exact ⟨m, trace, toured, .over failure millis requests⟩
  · obtain ⟨trace, toured⟩ := brought
    exact ⟨s', trace, toured, .left (by simp)⟩
  · obtain ⟨trace, toured⟩ := brought
    exact ⟨s', trace, toured, .left (by simp)⟩

end Play

namespace Run

/-- The pictures of a run from `s` to `s'`, and the steps that were begun in it. -/
structure Album (stage : Stage σ) (s : World σ) (record : RunRecord) (s' : World σ) (began : List Begun)
    (pictures : List Picture) : Prop where
  numbers : began.map (·.number) = List.range' (s.begun + 1) began.length
  starts : ∃ es, s'.events = s.events ++ es ∧ Event.starts es = stage.told (began.map (·.event))
  stored : ∃ d, stage.Stores s.desk pictures d ∧ s'.desk = (stage.sink.storeResult d record).2 ∧
    ∀ read, stage.Records read → read d = read s.desk ++ pictures
  named : ∀ p ∈ pictures, p.name ≠ ArtifactSink.resultName ∧
    ∃ b ∈ began, Play.Named b.number b.step.action p.name
  apart : (pictures.map (·.name)).Nodup
  depicts : Play.Depicts pictures 0 record.steps began

/-- What is told before the steps of a run and after them tells of no start of a step. -/
theorem starts_around (stage : Stage σ) (runId id : String) (total : Nat) (record : RunRecord)
    (es : List Event) :
    Event.starts (stage.told [.runStarted runId id total] ++ es ++ stage.told [.runCompleted record]) =
      Event.starts es := by
  have started := Event.starts_told (e := .runStarted runId id total) rfl stage
  have completed := Event.starts_told (e := .runCompleted record) rfl stage
  rw [Event.starts_append, Event.starts_append, started, completed, List.nil_append, List.append_nil]

/-- A run whose references are refused has no pictures. -/
theorem album_of_refused {stage : Stage σ} {scenario : Scenario} {s : World σ} {e : Failure}
    (h : (Preflight.check stage.scenarios s.desk scenario).1 = .error e) (runId : String) (c : Clock) :
    ∃ record c' s', (run stage scenario runId).run c s = (some record, c', s') ∧
      Album stage s record s' [] [] := by
  obtain ⟨record, c', s', hrecord, -, -, hsteps, concludes⟩ := conclude_follows stage scenario runId c.now
    (.refused scenario e) c (((opened stage scenario runId s).say
      (Preflight.check stage.scenarios s.desk scenario).2).say [.error ("❌ 预检失败: " ++ e.message)])
  refine ⟨record, c', s', by rw [Timed.run, run_of_error h, hrecord], ⟨rfl, ?_, ?_, by simp, .nil, ?_⟩⟩
  · refine ⟨stage.told [.runStarted runId scenario.id scenario.steps.length] ++ [] ++
      stage.told [.runCompleted record], ?_, ?_⟩
    · rw [concludes.events, List.append_nil, ← List.append_assoc]
      exact congrArg (· ++ _) (events_opened scenario runId s)
    · rw [starts_around, List.map_nil, stage.told_nil]
      rfl
  · refine ⟨s.desk, .nothing, ?_, fun read _ => (List.append_nil _).symm⟩
    rw [concludes.desk]
    exact congrArg (fun d => (stage.sink.storeResult d record).2) (desk_opened scenario runId s)
  · rw [hsteps]
    exact .all_skipped ..

/-- No picture of a run takes the name of another, or of the record. The steps are numbered in the order in
which their starts are told, and a picture bears the number of its step. What goes into the record as the
picture of a step is a reference that the sink has answered with to one of its own. In a world where no step
was begun before, the numbers are those from one on. -/
theorem pictures_apart (stage : Stage σ) :
    (∀ (runner : Runner σ) (place : Place) (stack : CallStack) (step : Step) (w : Watch)
      (x y : Clock × World σ) (e : Exit (Outcome × Option Failure)),
      Play.turn stage runner place stack step w x.1 x.2 = (e, y) →
      ∃ m trace, Play.Toured stage runner place stack (Play.names (x.2.begun + 1) step.action)
          (stage.opens place step x.2, .empty) (m, trace) ∧
        Play.Finishes stage place stack step m trace e y.2) ∧
    ∀ (scenario : Scenario) (runId : String) (c : Clock) (s : World σ), ∃ record c' s' began pictures,
      (run stage scenario runId).run c s = (some record, c', s') ∧
      Album stage s record s' began pictures := by
  refine ⟨fun _ _ _ _ _ _ _ _ h => Play.toured_of_turn h, fun scenario runId c s => ?_⟩
  cases h : (Preflight.check stage.scenarios s.desk scenario).1 with
  | error e =>
    obtain ⟨record, c', s', hrun, album⟩ := album_of_refused h runId c
    exact ⟨record, c', s', [], [], hrun, album⟩
  | ok u =>
    obtain ⟨record, c', s', s₀, c₁, s₁, played, report, hrun, begins, hplayed, hsteps, -, concludes⟩ :=
      run_judged h runId c
    obtain ⟨began, pictures, gathers, depicts⟩ := hplayed.depicts (Play.runner_picturing stage)
    refine ⟨record, c', s', began, pictures, hrun, ?_, ?_, ?_, ?_, gathers.apart, hsteps ▸ depicts⟩
    · have numbers := gathers.passes.numbers
      rwa [begins.begun] at numbers
    · obtain ⟨es, hes, hstarts⟩ := gathers.passes.events
      refine ⟨stage.told [.runStarted runId scenario.id scenario.steps.length] ++ es ++
        stage.told [.runCompleted record], ?_, (starts_around ..).trans hstarts⟩
      rw [concludes.events, hes, begins.events]
      simp only [List.append_assoc]
    · have stored := gathers.passes.desk
      rw [begins.desk] at stored
      exact ⟨s₁.desk, stored, concludes.desk, fun read records => stored.read records⟩
    · intro p hp
      obtain ⟨b, hb, named⟩ := gathers.named p hp
      exact ⟨named.ne_resultName, b, hb, named⟩

/-- A sink in memory holds the pictures in the order in which they were given to it. -/
theorem records_memory {stage : Stage σ} (sink : stage.sink = .memory) (sessions : stage.sessions = .memory) :
    stage.Records fun d => d.screenshots.map fun p => ⟨p.1, .ok ("memory://" ++ p.1)⟩ where
  picture := by
    intro d name png
    rw [sink]
    exact List.map_append
  session := by
    intro d key session
    rw [sessions]
    rfl

/-- A picture is taken, and nothing is there to be read. -/
def snapping : Scenario :=
  ⟨"a", none, none, none, [.ofInstruction .screenshot, .ofInstruction (.extract "#gone" "v")]⟩

open Preflight (nowhere referring)

/-- The picture of the first step comes last, after those of the two steps inside it. -/
theorem pictures_apart_snapping :
    ∃ record c s began pictures,
      (run (.overheard [snapping]) (referring "r" ["a"]) "1").run .start (.ofPage () nowhere) =
        (some record, c, s) ∧
      Album (.overheard [snapping]) (.ofPage () nowhere) record s began pictures ∧
      pictures.map (·.name) = ["002_screenshot.png", "003_extract_error.png", "001_run_scenario_error.png"] ∧
      record.steps.map (fun o => (o.screenshot, o.children.map (·.screenshot))) =
        [(some "memory://001_run_scenario_error.png",
          [some "memory://002_screenshot.png", some "memory://003_extract_error.png"])] := by
  obtain ⟨record, c, s, began, pictures, hrun, album⟩ :=
    (pictures_apart (.overheard [snapping])).2 (referring "r" ["a"]) "1" .start (.ofPage () nowhere)
  have hran : let ran := (run (.overheard [snapping]) (referring "r" ["a"]) "1").run .start (.ofPage () nowhere)
      (ran.2.2.desk.screenshots.map (·.1),
        ran.1.map fun r => r.steps.map fun o => (o.screenshot, o.children.map (·.screenshot))) =
      (["002_screenshot.png", "003_extract_error.png", "001_run_scenario_error.png"],
        some [(some "memory://001_run_scenario_error.png",
          [some "memory://002_screenshot.png", some "memory://003_extract_error.png"])]) := by decide +kernel
  rw [hrun] at hran
  obtain ⟨hnames, hsteps⟩ := Prod.mk.inj hran
  obtain ⟨d, -, hdesk, recorded⟩ := album.stored
  have held : d.screenshots = s.desk.screenshots := by
    rw [hdesk]
    rfl
  have names : pictures.map (·.name) = d.screenshots.map (·.1) := by
    have read := recorded _ (records_memory rfl rfl)
    have read := congrArg (List.map Picture.name) read
    rw [List.map_map, List.map_append] at read
    exact read.symm
  exact ⟨record, c, s, began, pictures, hrun, album, by rw [names, held, hnames], Option.some.inj hsteps⟩

end Run

end Rehearsal
