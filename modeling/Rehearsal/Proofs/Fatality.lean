import Rehearsal.Proofs.Anatomy

/-! # Fatal failures

In a run that is never cancelled a fatal failure of a step ends everything. The step has sunk, and with
it each step around it, one after the other up to the scenario of the run itself, all with the very same
failure; on the way no step begins, no picture is taken and nothing is stored.
-/
namespace Rehearsal

open Timed (Maintains Whatever)

variable {σ : Type}

/-- The event tells of a step's start. -/
def Event.Starts : Event → Prop
  | .stepStarted .. => True
  | _ => False

theorem Stage.not_starts_of_told {stage : Stage σ} {e : Event} (h : ¬ e.Starts) :
    ∀ e' ∈ stage.told [e], ¬ e'.Starts := by
  unfold Stage.told
  split
  · exact List.forall_mem_singleton.mpr h
  · simp

/-- From one world to the other no step begins, and nothing is stored. -/
structure World.Winds (s s' : World σ) : Prop where
  begun : s'.begun = s.begun
  desk : s'.desk = s.desk
  events : ∃ es, s'.events = s.events ++ es ∧ ∀ e ∈ es, ¬ e.Starts

namespace World.Winds

variable {s s' s'' : World σ}

theorem trans (h : s.Winds s') (h' : s'.Winds s'') : s.Winds s'' := by
  obtain ⟨es, hes, quiet⟩ := h.events
  obtain ⟨es', hes', quiet'⟩ := h'.events
  refine ⟨h'.begun.trans h.begun, h'.desk.trans h.desk, es ++ es', ?_,
    List.forall_mem_append.mpr ⟨quiet, quiet'⟩⟩
  rw [hes', hes, List.append_assoc]

theorem of_resembles (h : s.Resembles s') : s.Winds s' :=
  ⟨h.begun, h.desk, [], by rw [h.events, List.append_nil], by simp⟩

theorem say (s : World σ) (lines : List LogLine) : s.Winds (s.say lines) :=
  .of_resembles ⟨rfl, rfl, rfl, rfl, rfl⟩

theorem heard (stage : Stage σ) {e : Event} (s : World σ) (h : ¬ e.Starts) :
    s.Winds (stage.heard e s) :=
  ⟨stage.begun_heard .., stage.desk_heard .., stage.told [e], stage.events_heard ..,
    Stage.not_starts_of_told h⟩

theorem closes (stage : Stage σ) (t : Turn) (s : World σ) : s.Winds (stage.closes t s) := by
  have told : (s.say [Narration.stepEnd t.place t.outcome]).Winds
      (stage.heard (.stepEnded t.place.scenario t.place.depth t.outcome)
        (s.say [Narration.stepEnd t.place t.outcome])) := heard stage _ id
  have closed := (say s _).trans told
  exact ⟨closed.begun, closed.desk, closed.events⟩

theorem complaint (stage : Stage σ) (place : Place) (r : Except Failure Unit) (x : World σ × Trace) :
    x.1.Winds (stage.complaint place r x).1 := by
  cases r with
  | ok u => exact .of_resembles (.refl _)
  | error e => exact (say x.1 _).trans (heard stage _ id)

end World.Winds

namespace Turn

/-- The step has not failed, or not fatally. -/
def Mild (t : Turn) : Prop := ∀ e, t.failure = some e → e.isFatal = false

/-- The step has failed with this failure and no other, and there is no picture of it. -/
structure Sinks (t : Turn) (e : Failure) : Prop where
  failure : t.failure = some e
  status : t.outcome.status = .failed
  error : t.outcome.error = some e.message
  screenshot : t.outcome.screenshot = none

theorem Sinks.of_outcome {t : Turn} {e : Failure} {trace : Trace} {millis : Nat}
    {requests : List NetworkRequest} (failure : t.failure = some e)
    (outcome : t.outcome = trace.outcome t.place t.step t.failure millis requests)
    (screenshot : trace.screenshot = none) : t.Sinks e := by
  rw [failure] at outcome
  refine ⟨failure, ?_, ?_, ?_⟩
  · rw [outcome]
    rfl
  · rw [outcome]
    rfl
  · rw [outcome]
    exact screenshot

/-- Among the outcomes of its scenario, those after that of the step are of steps skipped. -/
structure LastOf (t : Turn) (os : List Outcome) : Prop where
  here : os[t.place.index]? = some t.outcome
  after : ∀ {i : Nat} {o : Outcome}, t.place.index < i → os[i]? = some o → o.status = .skipped

/-- The step is the last one played of the scenario that another step had played. -/
structure Inside (t u : Turn) : Prop where
  stack : ∃ id, u.step.instruction.reference? = some id ∧ t.stack = u.stack.push id
  depth : t.place.depth = u.place.depth + 1
  last : t.LastOf u.outcome.children

/-- Steps one inside the other that have all sunk with the same failure, the innermost first. -/
inductive Sinking (e : Failure) : List Turn → Turn → Prop
  | alone {t : Turn} (sinks : t.Sinks e) : Sinking e [t] t
  | around {chain : List Turn} {t u : Turn} (inner : Sinking e chain t) (sinks : u.Sinks e)
    (inside : t.Inside u) : Sinking e (chain ++ [u]) u

namespace Sinking

variable {e : Failure} {chain : List Turn} {top : Turn}

theorem sinks (h : Sinking e chain top) : ∀ t ∈ chain, t.Sinks e := by
  induction h with
  | alone sinks => exact List.forall_mem_singleton.mpr sinks
  | around inner sinks inside ih =>
    exact List.forall_mem_append.mpr ⟨ih, List.forall_mem_singleton.mpr sinks⟩

/-- Around a step there are as many others as it is deep below the last one. -/
theorem depth (h : Sinking e chain top) {i : Nat} {t : Turn} (ht : chain[i]? = some t) :
    t.place.depth + i + 1 = top.place.depth + chain.length := by
  induction h generalizing i with
  | @alone u sinks =>
    cases i with
    | zero =>
      cases ht
      rfl
    | succ i => cases ht
  | @around chain u v inner sinks inside ih =>
    rw [List.length_append, List.length_singleton]
    rcases Nat.lt_or_ge i chain.length with hi | hi
    · rw [List.getElem?_append_left hi] at ht
      have hdepth := ih ht
      have hinside := inside.depth
      omega
    · rw [List.getElem?_append_right hi] at ht
      have hzero : i - chain.length = 0 := by
        by_contra hne
        rw [List.getElem?_eq_none (by simp; omega)] at ht
        cases ht
      rw [hzero] at ht
      cases ht
      omega

end Sinking

end Turn

namespace Play

section

variable (stage : Stage σ)

/-- An attempt at the step of the turn has failed in that world. -/
def Fails (t : Turn) (e : Failure) (z : World σ) : Prop :=
  ∃ (runner : Runner σ) (stem : String) (w : Watch) (x : Clock × World σ) (c : Clock) (trace : Trace),
    IsRunner stage runner ∧
    attempt stage runner t.place t.stack stem t.step w x.1 (x.2, .empty) =
      (.done (.error e), c, z, trace)

/-- Of the turns of a playing, that went from `s` to `s'`, the last ones have sunk with a fatal failure,
the first of them in the world `z`, and `top` around all the others. -/
structure Sunk (e : Failure) (s : World σ) (new quiet chain : List Turn) (first top : Turn)
    (z s' : World σ) : Prop where
  isFatal : e.isFatal = true
  parts : new = quiet ++ chain
  mild : ∀ t ∈ quiet, t.Mild
  sinking : Turn.Sinking e chain top
  head : chain.head? = some first
  fails : Fails stage first e z
  turns : z.turns = s.turns ++ quiet
  winds : z.Winds s'

/-- The turns of a playing have ended with one that sank. -/
def Sinks (e : Failure) (s : World σ) (new : List Turn) (top : Turn) (s' : World σ) : Prop :=
  ∃ quiet chain first z, Sunk stage e s new quiet chain first top z s'

end

variable {stage : Stage σ} {runner : Runner σ} {place : Place} {stack : CallStack} {step : Step}
  {w : Watch}

namespace Sinks

variable {e : Failure} {s s₀ s' s'' : World σ} {new more : List Turn} {top : Turn}

theorem isFatal (h : Sinks stage e s new top s') : e.isFatal = true := by
  obtain ⟨_, _, _, _, sunk⟩ := h
  exact sunk.isFatal

/-- Turns before it that are mild do not matter. -/
theorem since (h : Sinks stage e s new top s') (turns : s.turns = s₀.turns ++ more)
    (mild : ∀ t ∈ more, t.Mild) : Sinks stage e s₀ (more ++ new) top s' := by
  obtain ⟨quiet, chain, first, z, sunk⟩ := h
  refine ⟨more ++ quiet, chain, first, z, sunk.isFatal, ?_, List.forall_mem_append.mpr ⟨mild, sunk.mild⟩,
    sunk.sinking, sunk.head, sunk.fails, ?_, sunk.winds⟩
  · rw [sunk.parts, List.append_assoc]
  · rw [sunk.turns, turns, List.append_assoc]

theorem of_turns_eq (h : Sinks stage e s new top s') (turns : s.turns = s₀.turns) :
    Sinks stage e s₀ new top s' := by
  have none : s.turns = s₀.turns ++ [] := by rw [turns, List.append_nil]
  exact since h none (by simp)

theorem winds (h : Sinks stage e s new top s') (winds : s'.Winds s'') : Sinks stage e s new top s'' := by
  obtain ⟨quiet, chain, first, z, sunk⟩ := h
  exact ⟨quiet, chain, first, z, { sunk with winds := sunk.winds.trans winds }⟩

/-- The first step to sink. -/
theorem alone {t : Turn} (isFatal : e.isFatal = true) (sinks : t.Sinks e) (fails : Fails stage t e s')
    (turns : s'.turns = s.turns ++ new) (mild : ∀ u ∈ new, u.Mild) :
    Sinks stage e s (new ++ [t]) t s' :=
  ⟨new, [t], t, s', isFatal, rfl, mild, .alone sinks, rfl, fails, turns, .of_resembles (.refl _)⟩

/-- The next step to sink is the one around. -/
theorem around {u : Turn} (h : Sinks stage e s new top s') (sinks : u.Sinks e) (inside : top.Inside u) :
    Sinks stage e s (new ++ [u]) u s' := by
  obtain ⟨quiet, chain, first, z, sunk⟩ := h
  refine ⟨quiet, chain ++ [u], first, z, sunk.isFatal, ?_, sunk.mild, .around sunk.sinking sinks inside, ?_,
    sunk.fails, sunk.turns, sunk.winds⟩
  · rw [sunk.parts, List.append_assoc]
  · rw [List.head?_append, sunk.head]
    rfl

end Sinks

theorem passOn_of_isFatal (step : Step) {e : Failure} (h : e.isFatal = true) : step.passOn e = e := by
  unfold Step.passOn
  split
  · rw [if_pos (by simp [h])]
  · rfl

/-- What becomes of a scenario that is dealt with while the run is not cancelled: it is refused, or it is
played without a fatal failure, or its last turn has sunk. -/
inductive Fares (stage : Stage σ) (id : String) (stack : CallStack) (depth : Nat) (s : World σ) :
    Except Failure Report → World σ → Prop
  | refused {e : Failure} {s' : World σ} (counts : Counts s [] s') :
    Fares stage id stack depth s (.error e) s'
  | mild {new : List Turn} {report : Report} {s' : World σ} (counts : Counts s new s')
    (fatal : report.fatal = none) (mild : ∀ t ∈ new, t.Mild) :
    Fares stage id stack depth s (.ok report) s'
  | sinks {new : List Turn} {report : Report} {e : Failure} {top : Turn} {s' : World σ}
    (counts : Counts s new s') (fatal : report.fatal = some e) (sinks : Sinks stage e s new top s')
    (pushed : top.stack = stack.push id) (deeper : top.place.depth = depth + 1)
    (last : top.LastOf report.outcomes) : Fares stage id stack depth s (.ok report) s'

/-- The dealings of runners in a run that is not cancelled. -/
abbrev Calmly (stage : Stage σ) : Conduct σ := fun id stack depth _ x e y =>
  y.1.isCancelled = false → ∀ r, e = .done r → Fares stage id stack depth x.2 r y.2

section

variable (does : Does (Calmly stage) runner)

include does

/-- What was played in an attempt, and whether this has sunk already. -/
theorem Undergone.fares {c : Clock} {s : World σ} {r : Except Failure Unit}
    {b : Clock × World σ × Trace}
    (undergone : Undergone stage runner place stack step (c, s, .empty) r b)
    (calm : b.1.isCancelled = false) :
    ∃ new, Counts s new b.2.1 ∧ (∀ e, r = .error e → b.2.2.screenshot = none) ∧
      ((∀ t ∈ new, t.Mild) ∨ ∃ e id top, r = .error e ∧ Sinks stage e s new top b.2.1 ∧
        step.instruction.reference? = some id ∧ top.stack = stack.push id ∧
        top.place.depth = place.depth + 1 ∧ top.LastOf b.2.2.children) := by
  cases undergone with
  | @alone z goes kept =>
    obtain ⟨begun, turns, -, screenshot⟩ := goes.stays
    obtain ⟨world, -⟩ := same_of_kept kept
    refine ⟨[], .refl_of (world ▸ turns) (world ▸ begun), fun e he => ?_, .inl (by simp)⟩
    rcases kept with kept | ⟨hr, -⟩
    · rw [kept]
      exact screenshot
    · rw [he] at hr
      cases hr
  | @plays id w r' a b' reference before idle performed later after bears =>
    obtain ⟨-, turns, children, screenshot⟩ := before.stays
    obtain ⟨-, -, -, screenshot'⟩ := after.stays
    have calm' : b'.1.isCancelled = false := later.not_isCancelled calm
    obtain ⟨e, -, trace, hrunner⟩ | ⟨report, hreport, trace, hrunner⟩ := answer_of_perform performed
    · have fares := does hrunner calm' _ rfl
      cases fares with
      | refused counts =>
        refine ⟨[], counts.amid before after, fun _ _ => ?_, .inl (by simp)⟩
        rw [screenshot', trace]
        exact screenshot
    · have unpictured : b.2.2.screenshot = none := by
        rw [screenshot', trace]
        exact screenshot
      have fares := does hrunner calm' _ rfl
      cases fares with
      | @mild new _ _ counts fatal mild =>
        exact ⟨new, counts.amid before after, fun _ _ => unpictured, .inl mild⟩
      | @sinks new _ e top _ counts fatal sinks hstack hdepth last =>
        refine ⟨new, counts.amid before after, fun _ _ => unpictured, .inr ⟨e, id, top, ?_⟩⟩
        have settled : r' = .error e := by
          rw [hreport, Report.settle, fatal]
        obtain ⟨hr, atOnce⟩ := bears e settled
        have same : step.passOn e = e := passOn_of_isFatal step sinks.isFatal
        have hb : b = b' := atOnce sinks.isFatal
        have hchildren : b.2.2.children = report.outcomes := by
          have empty : a.2.2.children = [] := children
          rw [hb, trace]
          simp only [empty, List.nil_append]
        refine ⟨by rw [hr, same], ?_, reference, hstack, hdepth, hchildren ▸ last⟩
        rw [hb]
        exact sinks.of_turns_eq turns

omit does in
/-- After a fatal failure no picture is taken, and nothing but the end of the turn follows. -/
theorem winds_of_fatal {d : Clock × World σ} {b b' : Clock × World σ × Trace} {t : Turn} {stem : String}
    {requests : List NetworkRequest} {e : Failure} (isFatal : e.isFatal = true)
    (captured : captureAfter stage t.step.action stem (.error e) w b.1 b.2 = (.done (), b'))
    (taken : stage.browser.takeRequests.run w b'.1 b'.2.1 = (.done requests, d)) :
    b' = b ∧
      b.2.1.Winds (stage.closes t (stage.complaint t.place (.error e) (d.2, b'.2.2)).1) := by
  have same : b' = b := by
    simp only [captureAfter, isFatal, Bool.true_or, ↓reduceIte] at captured
    cases captured
    rfl
  subst same
  have emptied : b'.2.1.Resembles d.2 := resembles_of_run taken
  have complained := World.Winds.complaint stage t.place (.error e) (d.2, b'.2.2)
  exact ⟨rfl, ((World.Winds.of_resembles emptied).trans complained).trans (.closes stage t _)⟩

/-- A turn has not failed fatally, and neither has what was played in it, or it has sunk. -/
theorem Anatomy.fares {x y : Clock × World σ} {t : Turn} (anatomy : Anatomy stage runner w x t y)
    (isRunner : IsRunner stage runner) (calm : y.1.isCancelled = false) :
    ∃ new, Counts x.2 (new ++ [t]) y.2 ∧
      ((∀ u ∈ new ++ [t], u.Mild) ∨
        ∃ e, t.failure = some e ∧ Sinks stage e x.2 (new ++ [t]) t y.2) := by
  obtain @⟨stem, old, requests, r, millis, a, d, b, b', emptied, attempted, captured, taken, later, failure,
    outcome, rfl⟩ := anatomy
  have undergone : Undergone stage runner t.place t.stack t.step (a.1, a.2, .empty) r b :=
    undergone_of_attempt isRunner.ends attempted (later.not_isCancelled calm)
  obtain ⟨new, counts, unpictured, fares⟩ := undergone.fares does (later.not_isCancelled calm)
  refine ⟨new, counts.turn emptied captured taken, ?_⟩
  cases hfatal : (failureOf r).any Failure.isFatal with
  | false =>
    have own : t.Mild := by
      intro e he
      rw [← failure, he] at hfatal
      exact hfatal
    rcases fares with mild | ⟨e, id, top, rfl, sinks, -⟩
    · exact .inl (List.forall_mem_append.mpr ⟨mild, List.forall_mem_singleton.mpr own⟩)
    · have isFatal : e.isFatal = false := own e failure
      rw [sinks.isFatal] at isFatal
      cases isFatal
  | true =>
    right
    cases r with
    | ok u => cases hfatal
    | error e =>
      have isFatal : e.isFatal = true := hfatal
      have failed : t.failure = some e := failure
      obtain ⟨rfl, winds⟩ := winds_of_fatal isFatal captured taken
      have sank : t.Sinks e := .of_outcome failed outcome (unpictured e rfl)
      have turns : a.2.turns = x.2.turns := by
        have opened : (stage.opens t.place t.step x.2).Resembles a.2 := resembles_of_run emptied
        exact opened.turns.trans (stage.turns_opens ..)
      refine ⟨e, failed, ?_⟩
      rcases fares with mild | ⟨_, id, top, ⟨⟩, sinks, reference, hstack, hdepth, last⟩
      · have fails : Fails stage t e b'.2.1 :=
          ⟨runner, stem, w, a, b'.1, b'.2.2, isRunner, attempted⟩
        have sinks : Sinks stage e a.2 (new ++ [t]) t b'.2.1 :=
          .alone isFatal sank fails counts.turns mild
        exact (sinks.of_turns_eq turns).winds winds
      · have children : t.outcome.children = b'.2.2.children := by rw [outcome]; rfl
        have inside : top.Inside t := ⟨⟨id, reference, hstack⟩, hdepth, children ▸ last⟩
        have sinks : Sinks stage e a.2 (new ++ [t]) t b'.2.1 := sinks.around sank inside
        exact (sinks.of_turns_eq turns).winds winds

variable (isRunner : IsRunner stage runner)

include isRunner

theorem Turned.fares {id : String} {depth index : Nat} {t : Turn} {x y : Clock × World σ}
    (h : Turned stage runner id stack depth w index step x t y) (calm : y.1.isCancelled = false) :
    ∃ new, Counts x.2 (new ++ [t]) y.2 ∧
      ((∀ u ∈ new ++ [t], u.Mild) ∨
        ∃ e, t.failure = some e ∧ Sinks stage e x.2 (new ++ [t]) t y.2) :=
  (anatomy_of_turn h.taken).fares does isRunner calm

/-- A turn that has failed and has not sunk is as mild as all that was played in it. -/
theorem Turned.fares_of_mild {id : String} {depth index : Nat} {t : Turn} {x y : Clock × World σ}
    {e : Failure} (h : Turned stage runner id stack depth w index step x t y)
    (calm : y.1.isCancelled = false) (failure : t.failure = some e) (own : e.isFatal = false) :
    ∃ new, Counts x.2 new y.2 ∧ ∀ u ∈ new, u.Mild := by
  obtain ⟨inner, counts, mild | ⟨e', failure', sinks⟩⟩ := h.fares does isRunner calm
  · exact ⟨_, counts, mild⟩
  · rw [failure] at failure'
    cases failure'
    rw [sinks.isFatal] at own
    cases own

/-- Of the turns of a scenario only the last one can have sunk. -/
theorem Played.fares {id : String} {depth index : Nat} {steps : List Step} {x y : Clock × World σ}
    {played : List Turn} {r : Report}
    (h : Played stage runner id stack depth w index steps x played r y)
    (calm : y.1.isCancelled = false) :
    ∃ new, Counts x.2 new y.2 ∧
      ((r.fatal = none ∧ ∀ t ∈ new, t.Mild) ∨
        ∃ e top, r.fatal = some e ∧ played.getLast? = some top ∧ Sinks stage e x.2 new top y.2) := by
  induction h with
  | all => exact ⟨[], .refl_of rfl rfl, .inl ⟨rfl, by simp⟩⟩
  | cancelledBefore seen =>
    rw [seen] at calm
    cases calm
  | @onward index s rest x y z t played r turned goesOn later ih =>
    have calm' := (later.before isRunner).not_isCancelled calm
    obtain ⟨inner, counts, mild | ⟨e, failure, sinks⟩⟩ := turned.fares does isRunner calm'
    case inr => exact absurd ⟨e, failure, .inl sinks.isFatal⟩ goesOn
    obtain ⟨more, counts', ⟨fatal, mild'⟩ | ⟨e, top, fatal, last, sinks⟩⟩ := ih calm
    · have milds := List.forall_mem_append.mpr ⟨mild, mild'⟩
      exact ⟨inner ++ [t] ++ more, counts.trans counts', .inl ⟨fatal, milds⟩⟩
    · refine ⟨inner ++ [t] ++ more, counts.trans counts', .inr ⟨e, top, fatal, ?_, ?_⟩⟩
      · rw [List.getLast?_cons, last]
        rfl
      · exact sinks.since counts.turns mild
  | @fatal index s rest x y t e turned failure isFatal =>
    obtain ⟨inner, counts, mild | ⟨e', failure', sinks⟩⟩ := turned.fares does isRunner calm
    · rw [mild t (by simp) e failure] at isFatal
      cases isFatal
    · rw [failure] at failure'
      cases failure'
      exact ⟨inner ++ [t], counts, .inr ⟨e, t, rfl, rfl, sinks⟩⟩
  | cancelled turned failure =>
    obtain ⟨new, counts, mild⟩ := turned.fares_of_mild does isRunner calm failure rfl
    exact ⟨new, counts, .inl ⟨rfl, mild⟩⟩
  | stopped turned failure own notCancelled stops =>
    obtain ⟨new, counts, mild⟩ := turned.fares_of_mild does isRunner calm failure own
    exact ⟨new, counts, .inl ⟨rfl, mild⟩⟩

omit does isRunner in
/-- After the last turn of a scenario come the outcomes of steps skipped. -/
theorem Played.lastOf {id : String} {depth : Nat} {steps : List Step} {x y : Clock × World σ}
    {played : List Turn} {r : Report} {t : Turn}
    (h : Played stage runner id stack depth w 0 steps x played r y) (last : played.getLast? = some t) :
    t.stack = stack ∧ t.place.depth = depth ∧ t.LastOf r.outcomes := by
  obtain ⟨init, rfl⟩ := List.getLast?_eq_some_iff.mp last
  have place : t.place = ⟨id, 0 + init.length, depth⟩ := h.row.placed (by simp)
  have index : t.place.index = init.length := by rw [place, Nat.zero_add]
  have outcomes := h.outcomes
  rw [List.map_append, List.append_assoc] at outcomes
  refine ⟨h.row.stacked t (by simp), by rw [place], ?_, ?_⟩
  · rw [index, outcomes, List.getElem?_append_right (by simp)]
    simp
  · intro i o hi ho
    rw [index] at hi
    rw [outcomes, List.getElem?_append_right (by simp; omega),
      List.getElem?_append_right (by simp; omega)] at ho
    exact Report.status_of_mem_skippedFrom (List.mem_of_getElem? ho)

theorem Entered.fares {id : String} {depth : Nat} {x y : Clock × World σ}
    {e : Exit (Except Failure Report)} (h : Entered stage runner id stack depth w x e y) :
    Calmly stage id stack depth w x e y := by
  rintro calm r rfl
  cases h with
  | refused lines => exact .refused (.refl_of rfl rfl)
  | @played scenario lines lines' z turns report off loaded played =>
    obtain ⟨new, counts, ⟨fatal, mild⟩ | ⟨e, top, fatal, last, sinks⟩⟩ :=
      played.fares does isRunner calm
    · exact .mild ⟨counts.turns, counts.begun⟩ fatal mild
    · obtain ⟨pushed, deeper, lastOf⟩ := played.lastOf last
      have since : Sinks stage e x.2 new top z.2 := sinks.of_turns_eq rfl
      exact .sinks ⟨counts.turns, counts.begun⟩ fatal (since.winds (.say ..)) pushed deeper lastOf
  | parted off loaded left parted => exact absurd rfl (left r)

end

theorem runner_fares (stage : Stage σ) : Does (Calmly stage) (Play.runner stage) := by
  refine runner_does ?_ fun isRunner does _ _ _ _ _ _ _ entered => entered.fares does isRunner
  rintro id stack depth w x e - r ⟨⟩
  exact .refused (.refl_of rfl rfl)

end Play

namespace Run

/-- How a fatal failure has ended a run that went from `s` to `s'` with this record: of its turns the
last ones have sunk, one inside the other up to a step of the scenario itself; nothing has begun since the
first of them failed in the world `z`, and nothing has been stored but the record. -/
structure Sunk (stage : Stage σ) (e : Failure) (s : World σ) (new quiet chain : List Turn)
    (first top : Turn) (z : World σ) (record : RunRecord) (s' : World σ) : Prop where
  parts : new = quiet ++ chain
  mild : ∀ t ∈ quiet, t.Mild
  sinking : Turn.Sinking e chain top
  sinks : ∀ t ∈ chain, t.Sinks e
  depth : ∀ i t, chain[i]? = some t → t.place.depth + i + 1 = chain.length
  last : top.LastOf record.steps
  head : chain.head? = some first
  fails : Play.Fails stage first e z
  turns : z.turns = s.turns ++ quiet
  begun : s'.begun = z.begun
  ended : s'.begun = s.begun + new.length
  desk : s'.desk = (stage.sink.storeResult z.desk record).2
  events : ∃ es, s'.events = z.events ++ es ∧ ∀ event ∈ es, ¬ event.Starts
  status : record.status = .failed
  error : record.error = some e.message

/-- What the playing of its steps has come to, the run comes to. -/
theorem sunk_of_played {stage : Stage σ} {scenario : Scenario} {runId : String} {record : RunRecord}
    {c : Clock} {s s₀ : World σ} {x y : Clock × World σ} {played new quiet chain : List Turn}
    {report : Report} {e : Failure} {first top : Turn} {z : World σ}
    (begins : Begins stage scenario runId s s₀)
    (hplayed : Play.Played stage (Play.runner stage) scenario.id (.root scenario.id) 0 .none 0
      scenario.steps (c, s₀) played report x)
    (hsteps : record.steps = report.outcomes) (judged : Judged scenario.steps played record)
    (concludes : Concludes stage record x y) (counts : Play.Counts s₀ new x.2)
    (fatal : report.fatal = some e) (last : played.getLast? = some top)
    (sunk : Play.Sunk stage e s₀ new quiet chain first top z x.2) :
    Sunk stage e s new quiet chain first top z record y.2 := by
  obtain ⟨-, depth, lastOf⟩ := hplayed.lastOf last
  obtain ⟨status, error⟩ := judged.fatal e ((hplayed.fatal_iff e).mp fatal)
  obtain ⟨es, hes, quiets⟩ := sunk.winds.events
  refine {
    parts := sunk.parts
    mild := sunk.mild
    sinking := sunk.sinking
    sinks := sunk.sinking.sinks
    depth := ?_
    last := hsteps ▸ lastOf
    head := sunk.head
    fails := sunk.fails
    turns := by rw [sunk.turns, begins.turns]
    begun := concludes.begun.trans sunk.winds.begun
    ended := by rw [concludes.begun, counts.begun, begins.begun]
    desk := by rw [concludes.desk, sunk.winds.desk]
    events := ?_
    status
    error }
  · intro i u hu
    have hdepth := sunk.sinking.depth hu
    rw [depth, Nat.zero_add] at hdepth
    exact hdepth
  · refine ⟨es ++ stage.told [.runCompleted record], ?_,
      List.forall_mem_append.mpr ⟨quiets, Stage.not_starts_of_told id⟩⟩
    rw [concludes.events, hes, List.append_assoc]

/-- In every run that is never cancelled a fatal failure of a step, however deep, ends the run. -/
theorem fatal_failure_ends (stage : Stage σ) (scenario : Scenario) (runId : String) (c : Clock)
    (s : World σ) :
    ∃ record c' s' new, (run stage scenario runId).run c s = (some record, c', s') ∧
      s'.turns = s.turns ++ new ∧
      (c'.isCancelled = false → ∀ t ∈ new, ∀ e, t.failure = some e → e.isFatal = true →
        ∃ quiet chain first top z,
          Sunk stage e s new quiet chain first top z record s' ∧ t ∈ chain) := by
  cases h : (Preflight.check stage.scenarios s.desk scenario).1 with
  | error e =>
    obtain ⟨record, c', s', hrun, -, hturns, -⟩ := run_refused h runId c
    exact ⟨record, c', s', [], hrun, by rw [hturns, List.append_nil], by simp⟩
  | ok u =>
    obtain ⟨record, c', s', s₀, c₁, s₁, played, report, hrun, begins, hplayed, hsteps, judged,
      concludes⟩ := run_judged h runId c
    obtain ⟨new, hnew, -⟩ := hplayed.row.adds (Play.runner_adds stage) .whole
    refine ⟨record, c', s', new, hrun, by rw [concludes.turns, hnew, begins.turns], ?_⟩
    intro calm t ht e failure isFatal
    have calm₁ : c₁.isCancelled = false := concludes.before.not_isCancelled calm
    obtain ⟨new', counts, fares⟩ := hplayed.fares (Play.runner_fares stage) .whole calm₁
    have same : new = new' := List.append_cancel_left (hnew.symm.trans counts.turns)
    subst same
    rcases fares with ⟨-, mild⟩ | ⟨e', top, fatal, last, quiet, chain, first, z, sunk⟩
    · rw [mild t ht e failure] at isFatal
      cases isFatal
    have hmem : t ∈ chain := by
      rw [sunk.parts] at ht
      rcases List.mem_append.mp ht with ht | ht
      · rw [sunk.mild t ht e failure] at isFatal
        cases isFatal
      · exact ht
    have same : e' = e := Option.some.inj ((sunk.sinking.sinks t hmem).failure.symm.trans failure)
    subst same
    exact ⟨quiet, chain, first, top, z,
      sunk_of_played begins hplayed hsteps judged concludes counts fatal last sunk, hmem⟩

open Preflight (nowhere)

/-- Waits for as long as a variable says that is never set. -/
def stumbling : Scenario :=
  ⟨"a", none, none, none, [.ofInstruction (.wait "\x7b\x7bn\x7d\x7d"), .ofInstruction .screenshot]⟩

/-- Has a scenario played whose failure would not matter. -/
def forgiving : Scenario :=
  ⟨"r", none, none, none, [⟨none, .runScenario "a", true, true, none⟩, .ofInstruction (.wait "0")]⟩

theorem fatal_failure_ends_forgiving :
    ∃ record c s e quiet chain first top z,
      (run (.bare [stumbling]) forgiving "1").run .start (.ofPage () nowhere) = (some record, c, s) ∧
      c.isCancelled = false ∧ e.isFatal = true ∧ chain.length = 2 ∧
      Sunk (.bare [stumbling]) e (.ofPage () nowhere) s.turns quiet chain first top z record s := by
  obtain ⟨record, c, s, new, hrun, hturns, law⟩ :=
    fatal_failure_ends (.bare [stumbling]) forgiving "1" .start (.ofPage () nowhere)
  have hran : ((run (.bare [stumbling]) forgiving "1").run .start (.ofPage () nowhere)).2.1.isCancelled =
        false ∧
      ((run (.bare [stumbling]) forgiving "1").run .start (.ofPage () nowhere)).2.2.turns.map
        (·.failure) = List.replicate 2 (some (.document (.waitValue "\x7b\x7bn\x7d\x7d"))) := by
    decide +kernel
  rw [hrun] at hran
  obtain ⟨calm, hfailures⟩ := hran
  have hnew : s.turns = new := hturns
  have failed : ∀ t ∈ new, t.failure = some (.document (.waitValue "\x7b\x7bn\x7d\x7d")) := by
    intro t ht
    have hmem : t.failure ∈ s.turns.map (·.failure) := List.mem_map_of_mem (hnew ▸ ht)
    simp only at hfailures
    rw [hfailures] at hmem
    exact List.eq_of_mem_replicate hmem
  have hlength : new.length = 2 := by
    have hlengths := congrArg List.length hfailures
    rw [List.length_map, List.length_replicate, hnew] at hlengths
    exact hlengths
  obtain ⟨t, ht⟩ : ∃ t, t ∈ new := List.exists_mem_of_length_pos (by omega)
  obtain ⟨quiet, chain, first, top, z, sunk, -⟩ := law calm t ht _ (failed t ht) rfl
  have hquiet : quiet = [] := by
    refine List.eq_nil_iff_forall_not_mem.mpr fun u hu => ?_
    have hmem : u ∈ new := by
      rw [sunk.parts]
      exact List.mem_append_left _ hu
    have mild := sunk.mild u hu _ (failed u hmem)
    cases mild
  have hchain : chain.length = 2 := by
    rw [sunk.parts, hquiet] at hlength
    exact hlength
  exact ⟨record, c, s, _, quiet, chain, first, top, z, hrun, calm, rfl, hchain, hnew ▸ sunk⟩

end Run

end Rehearsal
