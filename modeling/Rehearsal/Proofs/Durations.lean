import Mathlib.Algebra.Ring.Nat
import Rehearsal.Proofs.Anatomy
import Rehearsal.Proofs.Detours
import Rehearsal.Proofs.Keeping

/-! # How the times add up

A step takes the time between the telling of its start and that of its end, with everything that is played
in it. The steps of one scenario come one after another. So what the steps of a scenario have taken adds
up to no more than the time of the step that had it played, and the steps of a run to no more than the
time of the run.
-/
namespace Rehearsal

variable {σ : Type}

/-- Times add up to no more than a whole, also where each of them is rounded down to whole units. -/
structure AddUpTo (parts : List Nat) (whole : Nat) : Prop where
  sum : parts.sum ≤ whole
  rounded : ∀ unit, (parts.map (· / unit)).sum ≤ whole / unit

theorem sum_map_div_le (parts : List Nat) (unit : Nat) : (parts.map (· / unit)).sum ≤ parts.sum / unit := by
  induction parts with
  | nil => exact Nat.zero_le _
  | cons part parts ih =>
    rw [List.map_cons, List.sum_cons, List.sum_cons]
    exact (Nat.add_le_add_left ih _).trans (Nat.div_add_div_le_add_div ..)

/-- What adds up before the rounding adds up after it. -/
theorem addUpTo_iff {parts : List Nat} {whole : Nat} : AddUpTo parts whole ↔ parts.sum ≤ whole := by
  constructor
  · exact fun h => h.sum
  · exact fun h => ⟨h, fun unit => (sum_map_div_le parts unit).trans (Nat.div_le_div_right h)⟩

namespace Outcome

/-- The children of the outcome have taken no longer together than the step itself, and so have theirs. -/
inductive AddsUp : Outcome → Prop
  | mk {o : Outcome} (sum : AddUpTo (o.children.map (·.durationMs)) o.durationMs)
    (inside : ∀ child ∈ o.children, child.AddsUp) : AddsUp o

/-- All these outcomes fit one after another into a time. -/
structure Fit (os : List Outcome) (millis : Nat) : Prop where
  sum : (os.map (·.durationMs)).sum ≤ millis
  inside : ∀ o ∈ os, o.AddsUp

namespace Fit

variable {os : List Outcome} {o : Outcome} {millis millis' : Nat}

theorem nil (millis : Nat) : Fit [] millis := ⟨Nat.zero_le _, by simp⟩

theorem cons (h : Fit os millis) (hsum : o.durationMs + millis ≤ millis') (ho : o.AddsUp) :
    Fit (o :: os) millis' := by
  constructor
  · have hrest := h.sum
    rw [List.map_cons, List.sum_cons]
    omega
  · exact List.forall_mem_cons.mpr ⟨ho, h.inside⟩

theorem mono (h : Fit os millis) (hle : millis ≤ millis') : Fit os millis' :=
  ⟨h.sum.trans hle, h.inside⟩

theorem whole (h : Fit o.children o.durationMs) : o.AddsUp := .mk (addUpTo_iff.mpr h.sum) h.inside

/-- Steps that were skipped have taken no time. -/
theorem skipped (index : Nat) (steps : List Step) (millis : Nat) :
    Fit (Report.skippedFrom index steps) millis := by
  induction steps generalizing index with
  | nil => exact nil millis
  | cons step rest ih =>
    refine (ih (index + 1)).cons ?_ (whole (nil _))
    exact (Nat.zero_add millis).le

end Fit

end Outcome

open Outcome (Fit)

namespace Play

section

variable {stage : Stage σ} {runner : Runner σ} {place : Place} {stack : CallStack} {step : Step} {w : Watch}

theorem lasts_of_step {c c' : Clock} {s s' : World σ} {o : Outcome} {failure : Option Failure}
    (h : Play.step stage runner place stack step w c s = (.done (o, failure), c', s')) :
    o.durationMs = c'.now - c.now := by
  unfold Play.step at h
  rw [Timed.bind_of_done (Timed.now_apply ..)] at h
  obtain ⟨number, c₁, s₁, -, h⟩ := Timed.done_of_bind h
  obtain ⟨-, c₂, s₂, -, h⟩ := Timed.done_of_bind h
  obtain ⟨⟨⟨failed, requests⟩, trace⟩, c₃, s₃, -, h⟩ := Timed.done_of_bind h
  obtain ⟨ended, c₄, s₄, hnow, h⟩ := Timed.done_of_bind h
  cases hnow
  cases h
  rfl

/-- All that a turn does besides its step is done at once: its start is told when the step begins, and its
end when the step is over. -/
theorem turned_iff {id : String} {depth index : Nat} {t : Turn} {x y : Clock × World σ} :
    Turned stage runner id stack depth w index step x t y ↔
      t.place = ⟨id, index, depth⟩ ∧ t.stack = stack ∧ t.step = step ∧
        ∃ s, Play.step stage runner t.place stack step w x.1
            (stage.heard (t.place.started step.action step.name) (x.2.say [Narration.stepStart t.place step])) =
            (.done (t.outcome, t.failure), y.1, s) ∧ y.2 = stage.closes t s := by
  obtain ⟨place, stack', step', o, failure⟩ := t
  obtain ⟨c', s'⟩ := y
  refine and_congr_right fun hplace => and_congr_right fun hstack => and_congr_right fun hstep => ?_
  subst hstack hstep
  unfold turn
  rw [Timed.bind_of_done (Timed.say_apply ..), Timed.bind_of_done (stage.tell_apply ..)]
  constructor
  · intro h
    obtain ⟨⟨o', failure'⟩, c₁, s₁, hran, h⟩ := Timed.done_of_bind h
    simp only at h
    rw [Timed.bind_of_done (Timed.say_apply ..), Timed.bind_of_done (stage.tell_apply ..)] at h
    cases h
    exact ⟨s₁, hran, rfl⟩
  · rintro ⟨s, hran, rfl⟩
    refine (Timed.bind_of_done hran).trans ?_
    simp only
    rw [Timed.bind_of_done (Timed.say_apply ..), Timed.bind_of_done (stage.tell_apply ..)]
    rfl

/-- A step adds no outcomes by itself. -/
theorem respects_children (stage : Stage σ) (place : Place) :
    stage.Respects place fun x y => y.2.children = x.2.children where
  refl := fun _ => rfl
  trans := fun h h' => h'.trans h
  acts := by
    intro x y act
    cases act <;> rfl
  sets := fun _ _ _ => rfl

/-- The outcomes of a scenario fit into the time it took to play it. -/
abbrev Keeping : Conduct σ := fun _ _ _ _ x e y => Fit (outcomesOf e) (y.1.now - x.1.now)

section

variable (isRunner : IsRunner stage runner) (does : Does Keeping runner)

include isRunner does

theorem Turned.lasts {id : String} {depth index : Nat} {t : Turn} {x y : Clock × World σ}
    (h : Turned stage runner id stack depth w index step x t y) :
    t.outcome.durationMs = y.1.now - x.1.now ∧ t.outcome.AddsUp := by
  obtain ⟨-, -, -, s, ran, -⟩ := turned_iff.mp h
  have lasting := lasts_of_step ran
  refine ⟨lasting, Fit.whole ?_⟩
  obtain @⟨stem, old, requests, r, millis, a, d, b, b', emptied, attempted, captured, taken, later, failure,
    outcome, closes⟩ := anatomy_of_turn h.taken
  have anyone : Undisturbed fun _ : World σ => True := ⟨fun _ _ => trivial, fun _ _ => trivial⟩
  have earlier : x.1.Before a.1 := (maintains_call anyone _).before trivial emptied
  have children : t.outcome.children = b.2.2.children := by
    have keeps := maintains_captureAfter ((respects_children stage t.place).endures b.2) (fun _ _ _ h => h)
      t.step.action stem r
    have captured := keeps.holds (s := b.2) rfl captured
    rw [outcome]
    exact (stage.complaint_keeps t.place r (d.2, b'.2.2)).2.2.2.trans captured
  have attempts : Timed.Leads (Detour (fun x y => y.2.children = x.2.children) runner t.place t.stack)
      (attempt stage runner t.place t.stack stem t.step) :=
    leads_attempt (respects_children stage t.place) (fun _ _ _ _ _ h => h) stem
  have detour := attempts w a.1 (a.2, .empty)
  rw [attempted] at detour
  rw [children, lasting]
  cases detour with
  | own onward =>
    rw [onward.goes]
    exact .nil _
  | @plays id w' e p q before ran kept after =>
    have took := does ran
    have played := (isRunner.ends id t.stack t.place.depth).before trivial ran
    have first := before.goes
    rw [after.goes, kept, first]
    refine took.mono ?_
    have hearlier := earlier.now
    have hbefore := before.before.now
    have hplayed := played.now
    have hafter := after.before.now
    have hlater := later.now
    simp only at hbefore hplayed hafter ⊢
    omega

theorem Played.fit {id : String} {depth index : Nat} {steps : List Step} {x y : Clock × World σ}
    {played : List Turn} {report : Report}
    (h : Played stage runner id stack depth w index steps x played report y) :
    Fit report.outcomes (y.1.now - x.1.now) := by
  have last : ∀ {x y : Clock × World σ} {index : Nat} {step : Step} {rest : List Step} {t : Turn},
      Turned stage runner id stack depth w index step x t y →
      Fit (t.outcome :: Report.skippedFrom (index + 1) rest) (y.1.now - x.1.now) := by
    intro x y index step rest t turned
    obtain ⟨lasting, addsUp⟩ := turned.lasts isRunner does
    exact (Fit.skipped (index + 1) rest 0).cons lasting.le addsUp
  induction h with
  | all => exact .nil _
  | cancelledBefore seen => exact .skipped ..
  | onward turned goesOn later ih =>
    obtain ⟨lasting, addsUp⟩ := turned.lasts isRunner does
    refine ih.cons ?_ addsUp
    have hbefore := (turned.before isRunner).now
    have hlater := (later.before isRunner).now
    omega
  | fatal turned failure isFatal => exact last turned
  | cancelled turned failure => exact last turned
  | stopped turned failure mild own stops => exact last turned

end

/-- The outcomes of a scenario fit into the time it took, whoever had it played. -/
theorem IsRunner.keeping (isRunner : IsRunner stage runner) : Does Keeping runner := by
  refine isRunner.does (.nil _) fun isRunner does id stack depth w x e y entered => ?_
  cases entered with
  | refused lines => exact .nil _
  | played off loaded played => exact played.fit isRunner does
  | parted off loaded left parted =>
    rcases e with a | _ | _
    · exact absurd rfl (left a)
    · exact .nil _
    · exact .nil _

end

/-- A step that was played, with the moments at which its start and its end were told. -/
structure Stint where
  began : Nat
  turn : Turn
  ended : Nat

section

variable (stage : Stage σ) (runner : Runner σ) (id : String) (stack : CallStack) (depth : Nat) (w : Watch)

/-- Steps of one scenario were played one after another, the first of them as number `index`. -/
inductive Stints : Nat → List Step → Clock × World σ → List Stint → Clock × World σ → Prop
  | none {index : Nat} {steps : List Step} {x : Clock × World σ} : Stints index steps x [] x
  | next {index : Nat} {step : Step} {rest : List Step} {x y : Clock × World σ} {c : Clock} {s : World σ}
    {t : Turn} {stints : List Stint} (place : t.place = ⟨id, index, depth⟩) (stacked : t.stack = stack)
    (same : t.step = step)
    (played : Play.step stage runner t.place stack step w x.1
        (stage.heard (t.place.started step.action step.name) (x.2.say [Narration.stepStart t.place step])) =
      (.done (t.outcome, t.failure), c, s))
    (later : Stints (index + 1) rest (c, stage.closes t s) stints y) :
    Stints index (step :: rest) x (⟨x.1.now, t, c.now⟩ :: stints) y

/-- After these stints the playing of the steps came to its end, or it was given up in the next one. -/
inductive LeavesOff (index : Nat) (steps : List Step) (stints : List Stint) (x : Clock × World σ) :
    Exit Report → Clock × World σ → Prop
  | ends {report : Report}
    (outcomes : report.outcomes = stints.map (·.turn.outcome) ++
      Report.skippedFrom (index + stints.length) (steps.drop stints.length)) :
    LeavesOff index steps stints x (.done report) x
  | breaks {step : Step} {e : Exit Report} {e' : Exit (Outcome × Option Failure)} {y : Clock × World σ}
    (next : steps[stints.length]? = some step)
    (dropped : turn stage runner ⟨id, index + stints.length, depth⟩ stack step w x.1 x.2 = (e', y))
    (left : (∀ a, e' ≠ .done a) ∧ ∀ report, e ≠ .done report) : LeavesOff index steps stints x e y

end

/-- Between two moments each stint begins when those before it are over, and takes what its outcome says. -/
structure InTurn (first : Nat) (stints : List Stint) (last : Nat) : Prop where
  apart : stints.Pairwise fun a b => a.ended ≤ b.began
  within : ∀ a ∈ stints, first ≤ a.began ∧ a.began ≤ a.ended ∧ a.ended ≤ last
  lasting : ∀ a ∈ stints, a.turn.outcome.durationMs = a.ended - a.began

theorem InTurn.next {first middle last : Nat} {t : Turn} {stints : List Stint}
    (h : InTurn middle stints last) (hfirst : first ≤ middle) (hlast : middle ≤ last)
    (lasts : t.outcome.durationMs = middle - first) : InTurn first (⟨first, t, middle⟩ :: stints) last where
  apart := List.pairwise_cons.mpr ⟨fun a ha => (h.within a ha).1, h.apart⟩
  within := by
    intro a ha
    rcases List.mem_cons.mp ha with rfl | ha
    · exact ⟨Nat.le_refl _, hfirst, hlast⟩
    · obtain ⟨hbegan, hmost⟩ := h.within a ha
      exact ⟨hfirst.trans hbegan, hmost⟩
  lasting := List.forall_mem_cons.mpr ⟨lasts, h.lasting⟩

section

variable {stage : Stage σ} {runner : Runner σ} {id : String} {stack : CallStack} {depth index : Nat}
  {w : Watch} {steps : List Step} {step : Step} {x y : Clock × World σ} {stints : List Stint}

theorem Stints.of_turned {rest : List Step} {z : Clock × World σ} {t : Turn}
    (turned : Turned stage runner id stack depth w index step x t y)
    (later : Stints stage runner id stack depth w (index + 1) rest y stints z) :
    Stints stage runner id stack depth w index (step :: rest) x (⟨x.1.now, t, y.1.now⟩ :: stints) z := by
  obtain ⟨c, s⟩ := y
  obtain ⟨place, stacked, same, s', played, hclosed⟩ := turned_iff.mp turned
  simp only at hclosed
  subst hclosed
  exact .next place stacked same played later

theorem stints_of_played {played : List Turn} {report : Report}
    (h : Played stage runner id stack depth w index steps x played report y) :
    ∃ stints, Stints stage runner id stack depth w index steps x stints y ∧ stints.map (·.turn) = played := by
  induction h with
  | all => exact ⟨[], .none, rfl⟩
  | cancelledBefore seen => exact ⟨[], .none, rfl⟩
  | onward turned goesOn later ih =>
    obtain ⟨stints, rest, rfl⟩ := ih
    exact ⟨_, .of_turned turned rest, rfl⟩
  | fatal turned failure isFatal => exact ⟨_, .of_turned turned .none, rfl⟩
  | cancelled turned failure => exact ⟨_, .of_turned turned .none, rfl⟩
  | stopped turned failure mild own stops => exact ⟨_, .of_turned turned .none, rfl⟩

theorem LeavesOff.next {rest : List Step} {t : Turn} {began ended : Nat} {e : Exit Report}
    (h : LeavesOff stage runner id stack depth w (index + 1) rest stints x e y)
    (left : ∀ report, e ≠ .done report) :
    LeavesOff stage runner id stack depth w index (step :: rest) (⟨began, t, ended⟩ :: stints) x e y := by
  cases h with
  | ends outcomes => exact absurd rfl (left _)
  | breaks next dropped left =>
    refine .breaks (by simpa using next) ?_ left
    rw [List.length_cons, Nat.add_comm stints.length, ← Nat.add_assoc]
    exact dropped

theorem stints_of_stepsFrom {e : Exit Report}
    (h : stepsFrom stage runner id stack depth index steps w x.1 x.2 = (e, y)) :
    ∃ stints z, Stints stage runner id stack depth w index steps x stints z ∧
      LeavesOff stage runner id stack depth w index steps stints z e y := by
  by_cases left : ∀ report, e ≠ .done report
  · induction steps generalizing index x e with
    | nil =>
      cases h
      exact absurd rfl (left _)
    | cons step rest ih =>
      obtain ⟨c, s⟩ := x
      rcases stepsFrom_cases h with
        ⟨played, report, rfl, -⟩ | ⟨e', dropped, left', -⟩ | ⟨t, z, turned, -, h⟩
      · exact absurd rfl (left report)
      · exact ⟨[], (c, s), .none, .breaks rfl dropped ⟨left', left⟩⟩
      · rcases Timed.bind_cases h with ⟨report, c₁, s₁, -, h⟩ | ⟨e', hrest, left', -⟩
        · cases h
          exact absurd rfl (left _)
        · obtain ⟨stints, z', later, leavesOff⟩ := ih hrest left'
          refine ⟨_, z', .of_turned turned later, ?_⟩
          cases leavesOff with
          | ends outcomes => exact absurd rfl (left' _)
          | breaks next dropped left'' =>
            exact (LeavesOff.breaks (e := e) next dropped ⟨left''.1, left⟩).next left
  · obtain ⟨report, rfl⟩ : ∃ report, e = .done report := by
      by_contra hno
      exact left fun report he => hno ⟨report, he⟩
    obtain ⟨played, hplayed⟩ := played_of_done h
    obtain ⟨stints, later, rfl⟩ := stints_of_played hplayed
    refine ⟨stints, y, later, .ends ?_⟩
    have houtcomes := hplayed.outcomes
    rwa [List.map_map, List.length_map] at houtcomes

variable (isRunner : IsRunner stage runner)

include isRunner

theorem Stints.inTurn (h : Stints stage runner id stack depth w index steps x stints y) :
    InTurn x.1.now stints y.1.now ∧ x.1.now ≤ y.1.now := by
  induction h with
  | none => exact ⟨⟨.nil, by simp, by simp⟩, Nat.le_refl _⟩
  | @next index step rest x y c s t stints place stacked same played later ih =>
    have turned : Turned stage runner id stack depth w index step x t (c, stage.closes t s) :=
      turned_iff.mpr ⟨place, stacked, same, s, played, rfl⟩
    have passes : x.1.now ≤ c.now := (turned.before isRunner).now
    exact ⟨ih.1.next passes ih.2 (lasts_of_step played), passes.trans ih.2⟩

theorem LeavesOff.later {e : Exit Report}
    (h : LeavesOff stage runner id stack depth w index steps stints x e y) : x.1.now ≤ y.1.now := by
  cases h with
  | ends outcomes => exact Nat.le_refl _
  | @breaks step e e' y next dropped left =>
    have passes : x.1.Before y.1 :=
      (maintains_turn stage.lasting_true stage.excuses_true fun id _ => isRunner.ends id stack depth).before
        trivial dropped
    exact passes.now

end

end Play

namespace Run

variable {stage : Stage σ}

theorem lasts_of_conclude {scenario : Scenario} {runId : String} {started : Nat} {ending : Ending} {w : Watch}
    {c c' : Clock} {s s' : World σ} {record : RunRecord}
    (h : conclude stage scenario runId started ending w c s = (.done record, c', s')) :
    record.totalMs = c'.now - started := by
  obtain ⟨video, c₁, s₁, -, h⟩ := Timed.done_of_bind h
  rw [Timed.bind_of_done (Timed.now_apply ..)] at h
  obtain ⟨u, c₂, s₂, hstored, h⟩ := Timed.done_of_bind h
  obtain ⟨s₃, hstore, -, -⟩ := @store_apply _ stage _ w c₁ s₁
  rw [hstore] at hstored
  cases hstored
  rw [Timed.bind_of_done (Timed.say_apply ..), Timed.bind_of_done (stage.tell_apply ..)] at h
  cases h
  rfl

theorem lasts_of_run {scenario : Scenario} {runId : String} {c c' : Clock} {s s' : World σ}
    {record : RunRecord} (h : (run stage scenario runId).run c s = (some record, c', s')) :
    record.totalMs = c'.now - c.now := by
  unfold Timed.run at h
  generalize hrun : run stage scenario runId .none c s = r at h
  rcases r with ⟨record' | _ | _, c₁, s₁⟩
  · cases h
    rw [run_eq] at hrun
    obtain ⟨ending, c₂, s₂, -, hrun⟩ := Timed.done_of_bind hrun
    exact lasts_of_conclude hrun
  · cases h
  · cases h

/-- The times of a run add up: at every depth the steps that a step had played have taken no longer
together than the step, and the steps of the run no longer than the run. Wherever steps of one scenario
are played, and even if that is given up, each begins when the one before it is over. -/
theorem times_add_up (stage : Stage σ) :
    (∀ (scenario : Scenario) (runId : String) (c : Clock) (s : World σ), ∃ record c' s',
      (run stage scenario runId).run c s = (some record, c', s') ∧ (∀ o ∈ record.steps, o.AddsUp) ∧
      AddUpTo (record.steps.map (·.durationMs)) record.totalMs) ∧
    ∀ (runner : Runner σ), Play.IsRunner stage runner → ∀ (id : String) (stack : CallStack)
      (depth index : Nat) (steps : List Step) (w : Watch) (x y : Clock × World σ) (e : Exit Report),
      Play.stepsFrom stage runner id stack depth index steps w x.1 x.2 = (e, y) →
      ∃ stints z, Play.Stints stage runner id stack depth w index steps x stints z ∧
        Play.InTurn x.1.now stints z.1.now ∧ z.1.now ≤ y.1.now ∧
        Play.LeavesOff stage runner id stack depth w index steps stints z e y := by
  constructor
  · intro scenario runId c s
    cases h : (Preflight.check stage.scenarios s.desk scenario).1 with
    | error e =>
      obtain ⟨record, c', s', hrun, hsteps, -⟩ := run_refused h runId c
      have fit : Fit record.steps record.totalMs := hsteps ▸ .skipped ..
      exact ⟨record, c', s', hrun, fit.inside, addUpTo_iff.mpr fit.sum⟩
    | ok u =>
      obtain ⟨record, c', s', s₀, c₁, s₁, played, report, hrun, -, hplayed, hsteps, -, concludes⟩ :=
        run_judged h runId c
      have fit := hplayed.fit .whole (Play.IsRunner.keeping .whole)
      have hended := concludes.before.now
      have htotal := lasts_of_run hrun
      have fit : Fit record.steps record.totalMs := by
        rw [hsteps, htotal]
        exact fit.mono (Nat.sub_le_sub_right hended _)
      exact ⟨record, c', s', hrun, fit.inside, addUpTo_iff.mpr fit.sum⟩
  · intro runner isRunner id stack depth index steps w x y e h
    obtain ⟨stints, z, played, leavesOff⟩ := Play.stints_of_stepsFrom h
    exact ⟨stints, z, played, (played.inTurn isRunner).1, leavesOff.later isRunner, leavesOff⟩

open Preflight (nowhere referring)

/-- Two rests inside the only step of a run, which takes no longer than they do. -/
theorem times_add_up_dozing :
    ∃ record c s, (run (.overheard [dozing]) (referring "r" ["a"]) "1").run .start (.ofPage () nowhere) =
        (some record, c, s) ∧
      record.steps.map (fun o => (o.durationMs, o.children.map (·.durationMs))) = [(1010, [10, 1000])] ∧
      record.totalMs = 1010 ∧ (∀ o ∈ record.steps, o.AddsUp) ∧
      AddUpTo (record.steps.map (·.durationMs)) record.totalMs := by
  obtain ⟨record, c, s, hrun, addsUp, total⟩ :=
    (times_add_up (.overheard [dozing])).1 (referring "r" ["a"]) "1" .start (.ofPage () nowhere)
  have hran : ((run (.overheard [dozing]) (referring "r" ["a"]) "1").run .start (.ofPage () nowhere)).1.map
      (fun r => (r.steps.map (fun o => (o.durationMs, o.children.map (·.durationMs))), r.totalMs)) =
        some ([(1010, [10, 1000])], 1010) := by decide +kernel
  rw [hrun] at hran
  obtain ⟨hsteps, htotal⟩ := Prod.mk.inj (Option.some.inj hran)
  exact ⟨record, c, s, hrun, hsteps, htotal, addsUp, total⟩

end Run

end Rehearsal
