import Rehearsal.Proofs.RunCourse

/-! # What is told of a run

The events of a run are nested as its steps are. A step is told in a block: its start, its own lines,
the blocks of the scenario that it had played, and its end. Where a run is cancelled, the blocks of the
steps it is in the middle of have no end, except for the outermost.
-/
namespace Rehearsal

namespace Place

def started (place : Place) (action : Action) (name : Option String) : Event :=
  .stepStarted place.scenario place.depth place.index action name

def ended (place : Place) (o : Outcome) : Event := .stepEnded place.scenario place.depth o

/-- The place so many steps later. -/
def later (place : Place) (n : Nat) : Place := { place with index := place.index + n }

/-- The first step of a scenario that is played by the step at `place`. -/
def inside (place : Place) (id : String) : Place := ⟨id, 0, place.depth + 1⟩

/-- A step is told: its start, lines, what happens inside, more lines, and its end. -/
def block (place : Place) (o : Outcome) (before : List String) (inner : List Event)
    (after : List String) : List Event :=
  place.started o.action o.name :: (place.logged before ++ inner ++ place.logged after) ++
    [place.ended o]

/-- A step is told, but not its end. -/
def opening (place : Place) (action : Action) (name : Option String) (before : List String)
    (inner : List Event) (after : List String) : List Event :=
  place.started action name :: (place.logged before ++ inner ++ place.logged after)

end Place

/-- The outcomes of steps that were played. -/
def executed (outcomes : List Outcome) : List Outcome := outcomes.filter (·.status ≠ .skipped)

/-- The events tell of steps with these outcomes one after another, the first of them at the place, and
inside them of the steps that they had played. -/
inductive Blocks : Place → List Outcome → List Event → Prop
  | nil {place : Place} : Blocks place [] []
  | cons {place : Place} {o : Outcome} {os : List Outcome} {before after : List String} {id : String}
    {inner rest : List Event} (index : o.index = place.index) (logs : o.logs = before ++ after)
    (within : Blocks (place.inside id) (executed o.children) inner)
    (later : Blocks (place.later 1) os rest) :
    Blocks place (o :: os) (place.block o before inner after ++ rest)

/-- The events tell of steps one after another, the last of which has no end; inside it there may be
such a step again. -/
inductive Cut : Place → List Event → Prop
  | last {place : Place} {os inner : List Outcome} {es es' : List Event} {action : Action}
    {name : Option String} {before after : List String} {id : String} (earlier : Blocks place os es)
    (within : Blocks (place.inside id) inner es') :
    Cut place (es ++ (place.later os.length).opening action name before es' after)
  | deeper {place : Place} {os : List Outcome} {es es' : List Event} {action : Action}
    {name : Option String} {before after : List String} {id : String} (earlier : Blocks place os es)
    (within : Cut (place.inside id) es') :
    Cut place (es ++ (place.later os.length).opening action name before es' after)

/-- The events tell of a step with its end, but inside it a step has none. -/
def Stopped (place : Place) (o : Outcome) (es : List Event) : Prop :=
  ∃ before after id inner, o.index = place.index ∧ o.logs = before ++ after ∧ o.children = [] ∧
    Cut (place.inside id) inner ∧ es = place.block o before inner after

@[simp] theorem executed_skippedFrom (index : Nat) (steps : List Step) :
    executed (Report.skippedFrom index steps) = [] := by
  induction steps generalizing index with
  | nil => rfl
  | cons step rest ih => exact ih (index + 1)

theorem Place.later_later (place : Place) (n m : Nat) :
    (place.later n).later m = place.later (n + m) := by
  simp only [Place.later, Nat.add_assoc]

theorem Blocks.append {place : Place} {os os' : List Outcome} {es es' : List Event}
    (h : Blocks place os es) (h' : Blocks (place.later os.length) os' es') :
    Blocks place (os ++ os') (es ++ es') := by
  induction h with
  | nil => exact h'
  | cons index logs within later ihWithin ihLater =>
    rw [List.append_assoc]
    refine .cons index logs within (ihLater ?_)
    rw [Place.later_later, Nat.add_comm]
    exact h'

variable {σ : Type} {stage : Stage σ}

/-- Turns further in are added to the record. -/
def Deeper (depth : Nat) (before after : List Turn) : Prop :=
  ∃ inner, after = before ++ inner ∧ ∀ t ∈ inner, depth < t.place.depth

/-- What a runner tells depends on whether the scenario was played to its end, refused or given up. -/
def Told (first : Place) (es : List Event) : Exit (Except Failure Report) → Prop
  | .done (.ok report) => Blocks first (executed report.outcomes) es
  | .done (.error _) => es = []
  | .cancelled => Cut first es
  | .expired => Cut first es

theorem told_iff_cut {first : Place} {es : List Event} {e : Exit (Except Failure Report)}
    (left : ∀ a, e ≠ .done a) : Told first es e ↔ Cut first es := by
  cases e with
  | done a => exact absurd rfl (left a)
  | cancelled => exact .rfl
  | expired => exact .rfl

/-- What a runner tells, and whose turns it adds to the record. -/
structure Tells (stage : Stage σ) (depth : Nat) (e : Exit (Except Failure Report)) (s s' : World σ) :
    Prop where
  turns : Deeper depth s.turns s'.turns
  events : ∃ id es, s'.events = s.events ++ stage.told es ∧ Told ⟨id, 0, depth + 1⟩ es e

/-- Between two moments a step tells lines, what happens inside, and lines again, and gets children. -/
structure Speaks (stage : Stage σ) (place : Place) (x y : World σ × Trace) (before : List String)
    (inner : List Event) (after : List String) (children : List Outcome) : Prop where
  events : y.1.events = x.1.events ++
    stage.told (place.logged before ++ inner ++ place.logged after)
  logs : y.2.logs = x.2.logs ++ (before ++ after)
  children : y.2.children = x.2.children ++ children
  turns : Deeper place.depth x.1.turns y.1.turns

section

variable {place : Place} {x y : World σ × Trace}

theorem Deeper.refl (depth : Nat) (turns : List Turn) : Deeper depth turns turns :=
  ⟨[], (List.append_nil _).symm, by simp⟩

/-- Something happens inside, between moves of the step's own. -/
theorem Speaks.around {before after : List String} {inner : List Event} {children : List Outcome}
    {s s' : World σ} {t t' : Trace} (first : stage.Moved place before x (s, t))
    (last : stage.Moved place after (s', t') y) (events : s'.events = s.events ++ stage.told inner)
    (turns : Deeper place.depth s.turns s'.turns) (logs : t'.logs = t.logs)
    (outcomes : t'.children = t.children ++ children) :
    Speaks stage place x y before inner after children where
  events := by
    rw [last.events, events, first.events, stage.told_append, stage.told_append]
    simp only [List.append_assoc]
  logs := by rw [last.logs, logs, first.logs, List.append_assoc]
  children := by rw [last.children, outcomes, first.children]
  turns := by
    obtain ⟨turns', hturns, hdeeper⟩ := turns
    exact ⟨turns', by rw [last.turns, hturns, first.turns], hdeeper⟩

theorem Speaks.closes {s s' : World σ} {t : Turn} {trace : Trace} {before after : List String}
    {inner : List Event} {children : List Outcome} {millis : Nat} {requests : List NetworkRequest}
    (h : Speaks stage t.place (stage.opens t.place t.step s, .empty) (s', trace) before inner after
      children)
    (outcome : t.outcome = trace.outcome t.place t.step t.failure millis requests) :
    (stage.closes t s').events = s.events ++ stage.told (t.place.block t.outcome before inner after) ∧
      (∃ turns, Deeper t.place.depth s.turns turns ∧ (stage.closes t s').turns = turns ++ [t]) ∧
      t.outcome.logs = before ++ after ∧ t.outcome.children = children := by
  refine ⟨?_, ⟨s'.turns, ?_, stage.turns_closes t s'⟩, ?_, ?_⟩
  · rw [stage.events_closes, h.events, stage.events_opens]
    simp only [Place.block, Place.started, Place.ended, outcome, Trace.outcome, List.append_assoc,
      ← stage.told_append, List.cons_append, List.nil_append]
  · exact stage.turns_opens t.place t.step s ▸ h.turns
  · exact outcome ▸ h.logs
  · exact outcome ▸ h.children

end

namespace Play

variable {runner : Runner σ} {place : Place} {stack : CallStack} {step : Step} {w : Watch}
  {x y : World σ × Trace}

section

variable (does : Does (fun _ _ depth w x e y => w.cancellable = true → Tells stage depth e x.2 y.2) runner)

include does

/-- A step tells of the scenario that it has played, as much as there was of it. -/
theorem Course.speaks {r : Option (Except Failure Unit)}
    (h : Course stage runner place stack step x r y) :
    ∃ before inner after children, Speaks stage place x y before inner after children ∧
      ((∃ id, Blocks (place.inside id) (executed children) inner) ∨
        (r = none ∧ children = [] ∧ ∃ id, Cut (place.inside id) inner)) := by
  obtain ⟨a, b, lines, lines', first, happens, last⟩ := h.moved
  cases happens with
  | nothing unread =>
    exact ⟨lines, [], lines', [], .around first last (by simp) (.refl _ _) rfl (by simp),
      .inl ⟨"", .nil⟩⟩
  | reads instruction found noted succeeded =>
    exact ⟨lines, [], lines', [], .around first last (by simp) (.refl _ _) rfl (by simp),
      .inl ⟨"", .nil⟩⟩
  | plays reference plays bears =>
    cases plays with
    | refused watched answer =>
      obtain ⟨turns, id, es, events, rfl⟩ := does answer watched
      exact ⟨lines, [], lines', [], .around first last events turns rfl (by simp), .inl ⟨"", .nil⟩⟩
    | settled watched answer =>
      obtain ⟨turns, id, es, events, blocks⟩ := does answer watched
      exact ⟨lines, es, lines', _, .around first last events turns rfl rfl, .inl ⟨id, blocks⟩⟩
    | givenUp watched dropped left =>
      obtain ⟨turns, id, es, events, cut⟩ := does dropped watched
      exact ⟨lines, es, lines', [], .around first last events turns rfl (by simp),
        .inr ⟨bears, rfl, id, (told_iff_cut left).mp cut⟩⟩

/-- The turn of a step is told with its end. Inside it steps may be left without an end only if it was
cancelled and nobody further out was. -/
theorem Ends.tells {s s' : World σ} {t : Turn} (h : Ends stage runner w s t s') :
    ∃ es, s'.events = s.events ++ stage.told es ∧
      (∃ turns, Deeper t.place.depth s.turns turns ∧ s'.turns = turns ++ [t]) ∧
      (Blocks t.place [t.outcome] es ∨
        (t.failure = some .cancelled ∧ w.cancellable = false ∧ Stopped t.place t.outcome es)) := by
  obtain ⟨attempted, failure, outcome⟩ := h
  obtain ⟨r', course, left⟩ := attempted.tried.course
  obtain ⟨before, inner, after, children, speaks, inside⟩ := course.speaks does
  obtain ⟨events, turns, logs, rfl⟩ := speaks.closes outcome
  have index : t.outcome.index = t.place.index := by rw [outcome]; rfl
  refine ⟨_, events, turns, ?_⟩
  rcases inside with ⟨id, blocks⟩ | ⟨rfl, hchildren, id, cut⟩
  · have block := Blocks.cons index logs blocks .nil
    rw [List.append_nil] at block
    exact .inl block
  · obtain ⟨rfl, hw⟩ := left rfl
    exact .inr ⟨failure, hw, before, after, id, inner, index, logs, hchildren, cut, rfl⟩

/-- A turn that was given up is told without an end. -/
theorem Breaks.tells {s s' : World σ} (h : Breaks stage runner place stack step w s s') :
    ∃ before inner after, s'.events = s.events ++
        stage.told (place.opening step.action step.name before inner after) ∧
      Deeper place.depth s.turns s'.turns ∧
      ∃ id, (∃ os, Blocks (place.inside id) os inner) ∨ Cut (place.inside id) inner := by
  obtain ⟨trace, r, course⟩ := h.course
  obtain ⟨before, inner, after, children, speaks, inside⟩ := course.speaks does
  refine ⟨before, inner, after, ?_, ?_, ?_⟩
  · rw [speaks.events, stage.events_opens, List.append_assoc, ← stage.told_append]
    rfl
  · exact stage.turns_opens place step s ▸ speaks.turns
  · rcases inside with ⟨id, blocks⟩ | ⟨-, -, id, cut⟩
    · exact ⟨id, .inl ⟨_, blocks⟩⟩
    · exact ⟨id, .inr cut⟩

section

variable {id : String} {depth : Nat}

/-- The turns of a row are told one after another, if none of them was cancelled on its own. -/
theorem Row.tells {index : Nat} {s s' : World σ} {played : List Turn}
    (h : Row stage runner id stack depth w index s played s')
    (whole : ∀ t ∈ played, t.failure = some .cancelled → w.cancellable = true) :
    ∃ es, s'.events = s.events ++ stage.told es ∧ Blocks ⟨id, index, depth⟩ (played.map (·.outcome)) es ∧
      ∃ new, s'.turns = s.turns ++ new ∧ (∀ t ∈ new, depth ≤ t.place.depth) ∧
        new.filter (·.place.depth = depth) = played := by
  induction h with
  | none => exact ⟨[], by simp, .nil, [], by simp⟩
  | @next index c c' s s₁ s' step t played turned later ih =>
    obtain ⟨es', events', blocks', new, hnew, hdepth, htop⟩ :=
      ih fun t ht => whole t (List.mem_cons_of_mem _ ht)
    obtain ⟨es, events, ⟨_, ⟨inner, rfl, hdeeper⟩, turns⟩, told⟩ := turned.ends.tells does
    have block : Blocks t.place [t.outcome] es := by
      rcases told with block | ⟨hcancelled, hw, -⟩
      · exact block
      · rw [whole t (List.mem_cons_self ..) hcancelled] at hw
        cases hw
    rw [turned.1] at block hdeeper
    refine ⟨es ++ es', ?_, block.append blocks', inner ++ [t] ++ new, ?_, ?_, ?_⟩
    · rw [events', events, stage.told_append, List.append_assoc]
    · rw [hnew, turns]
      simp only [List.append_assoc]
    · simp only [List.mem_append, List.mem_singleton]
      rintro u ((hu | rfl) | hu)
      · exact Nat.le_of_lt (hdeeper u hu)
      · rw [turned.1]
      · exact hdepth u hu
    · have hinner : inner.filter (·.place.depth = depth) = [] := by
        refine List.filter_eq_nil_iff.mpr fun u hu => ?_
        simpa using Nat.ne_of_gt (hdeeper u hu)
      simp [hinner, htop, turned.1]

omit does in
/-- The outcomes of a report are those of the steps that were played. -/
theorem Policy.executed {index : Nat} {steps : List Step} {played : List Turn} {r : Report} {c : Clock}
    (h : Policy index steps played r c) : executed r.outcomes = played.map (·.outcome) := by
  have hplayed : ∀ o ∈ played.map (·.outcome), o.status ≠ .skipped := by
    intro o ho
    obtain ⟨t, ht, rfl⟩ := List.mem_map.mp ho
    rw [(h.told t ht).status]
    split <;> simp
  rw [h.outcomes, Rehearsal.executed, List.filter_append,
    List.filter_eq_self.mpr (by simpa using hplayed), ← Rehearsal.executed, executed_skippedFrom, List.append_nil]

/-- What is told of steps, of which only the last can have been cancelled. -/
theorem Played.tells {index : Nat} {steps : List Step} {x y : Clock × World σ} {played : List Turn}
    {r : Report} (h : Played stage runner id stack depth w index steps x played r y) :
    ∃ es new, y.2.events = x.2.events ++ stage.told es ∧ y.2.turns = x.2.turns ++ new ∧
      new.filter (·.place.depth = depth) = played ∧
      ((∀ t ∈ played, t.failure ≠ some .cancelled) →
        Blocks ⟨id, index, depth⟩ (played.map (·.outcome)) es) ∧
      ∀ t ∈ played, t.failure = some .cancelled → ∃ init es₁ es₂, played = init ++ [t] ∧
        es = es₁ ++ es₂ ∧ t.place = ⟨id, index + init.length, depth⟩ ∧
        Blocks ⟨id, index, depth⟩ (init.map (·.outcome)) es₁ ∧
        (Blocks t.place [t.outcome] es₂ ∨ Stopped t.place t.outcome es₂) := by
  rcases List.eq_nil_or_concat played with rfl | ⟨init, t, rfl⟩
  · obtain ⟨es, events, blocks, new, hnew, -, htop⟩ := h.row.tells does (by simp)
    exact ⟨es, new, events, hnew, htop, fun _ => blocks, by simp⟩
  rw [List.concat_eq_append] at h ⊢
  have own : ∀ t ∈ init, t.failure ≠ some .cancelled := by
    intro u hu he
    refine h.goesOn u ?_ (Turn.halts_of_cancelled he)
    rwa [List.dropLast_concat]
  obtain ⟨s₁, row, place, ends⟩ := h.row.last
  obtain ⟨es₁, events₁, blocks, new, hnew, -, htop⟩ :=
    row.tells does fun u hu he => absurd he (own u hu)
  obtain ⟨es₂, events₂, ⟨_, ⟨inner, rfl, hdeeper⟩, turns⟩, told⟩ := ends.tells does
  refine ⟨es₁ ++ es₂, new ++ inner ++ [t], ?_, ?_, ?_, ?_, ?_⟩
  · rw [events₂, events₁, stage.told_append, List.append_assoc]
  · rw [turns, hnew]
    simp only [List.append_assoc]
  · have hinner : inner.filter (·.place.depth = depth) = [] := by
      refine List.filter_eq_nil_iff.mpr fun u hu => ?_
      have hu := hdeeper u hu
      rw [place] at hu
      simpa using Nat.ne_of_gt hu
    simp [List.filter_append, hinner, htop, place]
  · intro whole
    rcases told with block | ⟨hcancelled, -, -⟩
    · rw [List.map_append]
      refine blocks.append ?_
      rw [place] at block
      rw [List.length_map]
      exact block
    · exact absurd hcancelled (whole t (by simp))
  · intro u hu he
    rcases List.mem_append.mp hu with hu | hu
    · exact absurd he (own u hu)
    · rw [List.mem_singleton.mp hu]
      refine ⟨init, es₁, es₂, rfl, rfl, place, blocks, ?_⟩
      rcases told with block | ⟨-, -, stopped⟩
      · exact .inl block
      · exact .inr stopped

/-- What is told of steps that end by being given up. -/
theorem Parted.tells {index : Nat} {steps : List Step} {s s' : World σ} {played : List Turn}
    (h : Parted stage runner id stack depth w index steps s played s') (watched : w.cancellable = true) :
    ∃ es, s'.events = s.events ++ stage.told es ∧ Cut ⟨id, index, depth⟩ es ∧
      ∃ new, s'.turns = s.turns ++ new ∧ ∀ t ∈ new, depth ≤ t.place.depth := by
  obtain ⟨-, step, s₁, -, row, breaks⟩ := h
  obtain ⟨es, events, blocks, new, hnew, hdepth, -⟩ := row.tells does fun _ _ _ => watched
  obtain ⟨before, inner, after, events', ⟨more, hmore, hdeeper⟩, id', within⟩ := breaks.tells does
  refine ⟨es ++
    Place.opening ⟨id, index + played.length, depth⟩ step.action step.name before inner after,
    ?_, ?_, new ++ more, ?_, ?_⟩
  · rw [events', events, stage.told_append, List.append_assoc]
  · have hlength : (played.map (·.outcome)).length = played.length := List.length_map ..
    rw [← hlength]
    rcases within with ⟨os, blocks'⟩ | cut
    · exact .last blocks blocks'
    · exact .deeper blocks cut
  · rw [hmore, hnew, List.append_assoc]
  · intro t ht
    rcases List.mem_append.mp ht with ht | ht
    · exact hdepth t ht
    · exact Nat.le_of_lt (hdeeper t ht)

/-- A scenario that is entered is told one step deeper. -/
theorem Entered.tells {x y : Clock × World σ} {e : Exit (Except Failure Report)}
    (h : Entered stage runner id stack depth w x e y) (watched : w.cancellable = true) :
    Tells stage depth e x.2 y.2 := by
  cases h with
  | refused lines => exact ⟨.refl depth x.2.turns, "", [], by simp [World.say], rfl⟩
  | @played scenario lines lines' y turns report off loaded played =>
    obtain ⟨es, events, blocks, new, hnew, hdepth, -⟩ := played.row.tells does fun _ _ _ => watched
    rw [← played.policy.executed] at blocks
    exact ⟨⟨new, hnew, hdepth⟩, scenario.id, es, events, blocks⟩
  | @parted scenario lines e turns y off loaded left parted =>
    obtain ⟨es, events, cut, new, hnew, hdepth⟩ := parted.tells does watched
    exact ⟨⟨new, hnew, hdepth⟩, scenario.id, es, events, (told_iff_cut left).mpr cut⟩

end

end

theorem runner_tells (stage : Stage σ) :
    Does (fun _ _ depth w x e y => w.cancellable = true → Tells stage depth e x.2 y.2)
      (Play.runner stage) :=
  runner_does (fun _ => ⟨.refl _ _, "", [], by simp, rfl⟩) fun _ does _ _ _ _ _ _ _ entered =>
    entered.tells does

end Play

namespace Run

/-- What a run has told between its start and its end, where `new` are the steps played in it. Only a
step of the scenario itself that was cancelled may be told with steps inside it that have no end, one
inside the other, and it is the last one then. -/
structure Narrated (scenario : Scenario) (record : RunRecord) (new : List Turn) (es : List Event) :
    Prop where
  top : (new.filter (·.place.depth = 0)).map (·.outcome) = executed record.steps
  whole : (∀ t ∈ new, t.place.depth = 0 → t.failure ≠ some .cancelled) →
    Blocks ⟨scenario.id, 0, 0⟩ (executed record.steps) es
  cancelled : ∀ t ∈ new, t.place.depth = 0 → t.failure = some .cancelled →
    ∃ os es₁ es₂, executed record.steps = os ++ [t.outcome] ∧ es = es₁ ++ es₂ ∧
      Blocks ⟨scenario.id, 0, 0⟩ os es₁ ∧ t.place = ⟨scenario.id, os.length, 0⟩ ∧
      (Blocks t.place [t.outcome] es₂ ∨ Stopped t.place t.outcome es₂)

/-- The events of a run: its start, what is told of the steps that it has played, and at last its end,
with its record. Of a run whose references are refused nothing else is told. -/
theorem event_grammar (stage : Stage σ) (scenario : Scenario) (runId : String) (c : Clock)
    (s : World σ) :
    ∃ record c' s' new es, (run stage scenario runId).run c s = (some record, c', s') ∧
      s'.turns = s.turns ++ new ∧
      s'.events = s.events ++ stage.told (.runStarted runId scenario.id scenario.steps.length ::
        es ++ [.runCompleted record]) ∧
      Narrated scenario record new es ∧
      ∀ e, (Preflight.check stage.scenarios s.desk scenario).1 = .error e → new = [] ∧ es = [] := by
  cases h : (Preflight.check stage.scenarios s.desk scenario).1 with
  | error e =>
    obtain ⟨record, c', s', hrun, hsteps, hturns, hevents⟩ := run_refused h runId c
    refine ⟨record, c', s', [], [], hrun, by rw [hturns, List.append_nil], hevents, ?_, by simp⟩
    have hexecuted : executed record.steps = [] := by rw [hsteps, executed_skippedFrom]
    refine ⟨by rw [hexecuted]; rfl, fun _ => ?_, by simp⟩
    rw [hexecuted]
    exact .nil
  | ok u =>
    obtain ⟨record, c', s', s₀, c₁, s₁, played, report, hrun, -, hturns₀, -, hevents₀, hplayed, hsteps,
      hturns, -, hevents⟩ := run_played h runId c
    obtain ⟨es, new, events, hnew, htop, whole, cancelled⟩ :=
      hplayed.tells (Play.runner_tells stage)
    have hexecuted : executed record.steps = played.map (·.outcome) := by
      rw [hsteps, hplayed.policy.executed]
    have hmem : ∀ t, t ∈ played ↔ t ∈ new ∧ t.place.depth = 0 := by
      intro t
      rw [← htop, List.mem_filter, decide_eq_true_iff]
    refine ⟨record, c', s', new, es, hrun, ?_, ?_, ⟨?_, ?_, ?_⟩, by simp⟩
    · rw [hturns, hnew, hturns₀]
    · rw [hevents, events, hevents₀]
      simp only [List.append_assoc, ← stage.told_append, List.cons_append, List.nil_append]
    · rw [htop, hexecuted]
    · intro hown
      rw [hexecuted]
      exact whole fun t ht => hown t ((hmem t).mp ht).1 ((hmem t).mp ht).2
    · intro t ht hdepth he
      obtain ⟨init, es₁, es₂, rfl, rfl, place, blocks, last⟩ :=
        cancelled t ((hmem t).mpr ⟨ht, hdepth⟩) he
      refine ⟨init.map (·.outcome), es₁, es₂, ?_, rfl, blocks, ?_, last⟩
      · rw [hexecuted, List.map_append]
        rfl
      · rw [place, List.length_map, Nat.zero_add]

end Run

/-- A stage on which everything is kept in memory and somebody listens. -/
def Stage.overheard (scenarios : List Scenario) : Stage Unit :=
  { Stage.bare scenarios with listening := true }

namespace Run

open Preflight (nowhere referring)

def resting : Scenario := ⟨"a", none, none, none, [.ofInstruction (.wait "5")]⟩

theorem event_grammar_resting :
    ∃ record c s es,
      (run (.overheard [resting]) (referring "r" ["a"]) "1").run .start (.ofPage () nowhere) =
        (some record, c, s) ∧
      s.events = .runStarted "1" "r" 1 :: es ++ [.runCompleted record] ∧ es.length = 5 ∧
      Blocks ⟨"r", 0, 0⟩ (executed record.steps) es := by
  obtain ⟨record, c, s, new, es, hrun, hturns, hevents, narrated, -⟩ :=
    event_grammar (.overheard [resting]) (referring "r" ["a"]) "1" .start (.ofPage () nowhere)
  have hran : (((run (.overheard [resting]) (referring "r" ["a"]) "1").run .start
      (.ofPage () nowhere)).2.2.turns.map (·.failure),
      ((run (.overheard [resting]) (referring "r" ["a"]) "1").run .start
        (.ofPage () nowhere)).2.2.events.length) = ([none, none], 7) := by decide +kernel
  rw [hrun] at hran
  obtain ⟨hfailures, hlength⟩ := Prod.mk.inj hran
  have hnew : s.turns = new := hturns
  refine ⟨record, c, s, es, hrun, hevents, ?_, narrated.whole fun t ht _ he => ?_⟩
  · have hlength' : s.events.length = es.length + 2 := by
      rw [hevents]
      simp [Stage.told, Stage.overheard, World.ofPage]
    simp only at hlength
    omega
  · have hmem : t.failure ∈ s.turns.map (·.failure) := List.mem_map_of_mem (hnew ▸ ht)
    simp only at hfailures
    rw [hfailures, he] at hmem
    simp at hmem

end Run

end Rehearsal
