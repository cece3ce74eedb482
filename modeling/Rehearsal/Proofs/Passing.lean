import Rehearsal.DevTools.Tab
import Rehearsal.Proofs.Asking
import Rehearsal.Proofs.LikePlay

/-! # Steps that are passed

Steps that were played one after another with others to come: nothing before them, in them or after them
has ended the playing. So they can be followed by any other steps, and they can be passed in another
world, by another scenario and at another depth as well.
-/
namespace Rehearsal

open Timed (AtOnce Follows Whatever)

variable {σ : Type}

/-- The requests are had at once. The page is left without them, and after that there are none. -/
structure Browser.Drains (b : Browser σ) (drain : σ → σ) : Prop where
  taken : ∀ c s, ∃ requests, ∀ w,
    b.takeRequests.run w c s = (.done requests, c, { s with page := drain s.page })
  again : ∀ page, drain (drain page) = drain page

/-- The requests of a page of the browser have been put together before. -/
theorem DevTools.Tab.drains {π : Type} (e : Endpoint π) :
    (Tab.browser e).Drains fun tab => { tab with traffic := { tab.traffic with ended := [] } } where
  taken _ s := ⟨s.page.traffic.ended, fun _ => rfl⟩
  again _ := rfl

/-- To keep a record makes no difference. -/
theorem Browser.Drains.recorded {b : Browser σ} {drain : σ → σ} (drains : b.Drains drain) :
    b.recorded.Drains fun page => (drain page.1, page.2) where
  taken c s := by
    obtain ⟨requests, htaken⟩ := drains.taken c { s with page := s.page.1 }
    refine ⟨requests, fun w => ?_⟩
    show (b.takeRequests.beside _).run w c s = _
    rw [Call.run_beside, htaken w]
  again page := congrArg (·, page.2) (drains.again page.1)

theorem Browser.Drains.atOnce {b : Browser σ} {drain : σ → σ} (drains : b.Drains drain) :
    AtOnce Whatever b.takeRequests.run := by
  intro c s
  obtain ⟨requests, htaken⟩ := drains.taken c s
  exact ⟨requests, _, htaken, trivial⟩

/-- The world after the requests were taken. -/
def World.drained (drain : σ → σ) (s : World σ) : World σ := { s with page := drain s.page }

theorem Browser.Drains.left {b : Browser σ} {drain : σ → σ} (drains : b.Drains drain) {w : Watch}
    {c : Clock} {s : World σ} {requests : List NetworkRequest} {y : Clock × World σ}
    (h : b.takeRequests.run w c s = (.done requests, y)) : y = (c, s.drained drain) := by
  obtain ⟨_, htaken⟩ := drains.taken c s
  rw [htaken w] at h
  exact (Prod.mk.inj h).2.symm

theorem Browser.Drains.drained_drained {b : Browser σ} {drain : σ → σ} (drains : b.Drains drain)
    (s : World σ) : (s.drained drain).drained drain = s.drained drain :=
  congrArg (fun page => ({ s with page } : World σ)) (drains.again s.page)

theorem Stage.drained_heard (stage : Stage σ) (drain : σ → σ) (e : Event) (s : World σ) :
    stage.heard e (s.drained drain) = (stage.heard e s).drained drain := by
  unfold Stage.heard
  split
  · rfl
  · rfl

/-- The report with the outcomes of turns before it. -/
def Report.afterAll (r : Report) (turns : List Turn) : Report :=
  turns.foldr (fun t r => r.after t.outcome (t.failure.isSome && t.step.counts)) r

section

variable (r : Report) (turns : List Turn)

theorem Report.outcomes_afterAll :
    (r.afterAll turns).outcomes = turns.map (·.outcome) ++ r.outcomes := by
  induction turns with
  | nil => rfl
  | cons t turns ih => exact congrArg (t.outcome :: ·) ih

theorem Report.failed_afterAll :
    (r.afterAll turns).failed = (turns.any (fun t => t.failure.isSome && t.step.counts) || r.failed) := by
  induction turns with
  | nil => rfl
  | cons t turns ih =>
    rw [List.any_cons, Bool.or_assoc, ← ih]
    rfl

theorem Report.cancelled_afterAll : (r.afterAll turns).cancelled = r.cancelled := by
  induction turns with
  | nil => rfl
  | cons t turns ih => exact ih

theorem Report.fatal_afterAll : (r.afterAll turns).fatal = r.fatal := by
  induction turns with
  | nil => rfl
  | cons t turns ih => exact ih

end

/-- The playing has ended before it got past the first steps: from one of them on there was no success. -/
structure Report.EndsWithin (r : Report) (first : List Step) : Prop where
  unsuccessful : ∃ i < first.length, ∀ (j : Nat) (o : Outcome), i ≤ j → r.outcomes[j]? = some o →
    o.status ≠ .success
  reason : r.cancelled = true ∨ r.fatal.isSome = true ∨
    ∃ (i : Nat) (s : Step) (o : Outcome), first[i]? = some s ∧ r.outcomes[i]? = some o ∧
      o.isFailed = true ∧ s.continues = false

theorem Report.EndsWithin.after {r : Report} {first : List Step} (h : r.EndsWithin first) (s : Step)
    (o : Outcome) (failed : Bool) : (r.after o failed).EndsWithin (s :: first) := by
  constructor
  · obtain ⟨i, hi, hnone⟩ := h.unsuccessful
    refine ⟨i + 1, Nat.succ_lt_succ hi, fun j o' hj ho => ?_⟩
    obtain _ | j := j
    · exact absurd hj (Nat.not_succ_le_zero i)
    · exact hnone j o' (Nat.le_of_succ_le_succ hj) ho
  · rcases h.reason with cancelled | fatal | ⟨i, s', o', hs, ho, failed, stops⟩
    · exact .inl cancelled
    · exact .inr (.inl fatal)
    · exact .inr (.inr ⟨i + 1, s', o', hs, ho, failed, stops⟩)

/-- There is no success among steps that were skipped. -/
theorem Report.ne_success_of_skippedFrom {index j : Nat} {steps : List Step} {o : Outcome}
    (h : (skippedFrom index steps)[j]? = some o) : o.status ≠ .success := by
  have hskipped : o.status = .skipped := status_of_mem_skippedFrom (List.mem_of_getElem? h)
  rw [hskipped]
  decide

namespace Play

variable (stage : Stage σ) (runner : Runner σ) (id : String) (stack : CallStack) (depth : Nat)

/-- Steps that were passed from one moment to another, each begun while the run was not cancelled. -/
inductive Passed (w : Watch) : Nat → List Step → Clock × World σ → List Turn → Clock × World σ → Prop
  | none {index : Nat} {x : Clock × World σ} : Passed w index [] x [] x
  | next {index : Nat} {s : Step} {rest : List Step} {x y z : Clock × World σ} {t : Turn}
    {passed : List Turn} (calm : x.1.isCancelled = false)
    (turned : Turned stage runner id stack depth w index s x t y) (goesOn : ¬ t.Halts)
    (later : Passed w (index + 1) rest y passed z) : Passed w index (s :: rest) x (t :: passed) z

variable {stage runner id stack depth}

theorem stepsFrom_of_cancelled {w : Watch} {index : Nat} {s : Step} {rest : List Step} {c : Clock}
    (x : World σ) (h : c.isCancelled = true) :
    stepsFrom stage runner id stack depth index (s :: rest) w c x =
      (.done (.cancelledBefore index (s :: rest)), c, x) := by
  rw [stepsFrom, Timed.bind_of_done (rfl : Timed.isCancelled w c x = (.done c.isCancelled, c, x)), h]
  rfl

/-- After a turn that does not end it the playing goes on. -/
theorem Turned.stepsFrom {w : Watch} {index : Nat} {s : Step} {rest : List Step}
    {x y z : Clock × World σ} {t : Turn} {r : Report} (calm : x.1.isCancelled = false)
    (turned : Turned stage runner id stack depth w index s x t y) (goesOn : ¬ t.Halts)
    (later : stepsFrom stage runner id stack depth (index + 1) rest w y.1 y.2 = (.done r, z)) :
    stepsFrom stage runner id stack depth index (s :: rest) w x.1 x.2 =
      (.done (r.after t.outcome (t.failure.isSome && t.step.counts)), z) := by
  obtain ⟨place, stack', s', outcome, failure⟩ := t
  obtain ⟨rfl, rfl, rfl, hturn⟩ := turned
  obtain ⟨c', s''⟩ := y
  rw [Play.stepsFrom, Timed.bind_of_done
    (rfl : Timed.isCancelled w x.1 x.2 = (.done x.1.isCancelled, x.1, x.2)), calm]
  simp only [Bool.false_eq_true, if_false]
  rw [Timed.bind_of_done hturn]
  cases failure with
  | none =>
    simp only
    rw [Timed.bind_of_done later]
    rfl
  | some e =>
    have mild : e.isFatal = false :=
      Bool.eq_false_iff.mpr fun fatal => goesOn ⟨e, rfl, .inl fatal⟩
    have own : e ≠ .cancelled := fun cancelled => goesOn ⟨e, rfl, .inr (.inl cancelled)⟩
    have continues : s'.continues = true :=
      eq_true_of_ne_false fun stops => goesOn ⟨e, rfl, .inr (.inr stops)⟩
    simp only [mild, own, continues, Bool.false_eq_true, if_false, if_true]
    rw [Timed.bind_of_done later]
    rfl

theorem Passed.stepsFrom {w : Watch} {index : Nat} {first rest : List Step} {x y z : Clock × World σ}
    {passed : List Turn} {r : Report}
    (h : Passed stage runner id stack depth w index first x passed y)
    (later : stepsFrom stage runner id stack depth (index + first.length) rest w y.1 y.2 =
      (.done r, z)) :
    stepsFrom stage runner id stack depth index (first ++ rest) w x.1 x.2 =
      (.done (r.afterAll passed), z) := by
  induction h with
  | none => exact later
  | next calm turned goesOn _ ih =>
    rw [List.length_cons, Nat.add_comm _ 1, ← Nat.add_assoc] at later
    exact turned.stepsFrom calm goesOn (ih later)

theorem Passed.length {w : Watch} {index : Nat} {steps : List Step} {x y : Clock × World σ}
    {passed : List Turn} (h : Passed stage runner id stack depth w index steps x passed y) :
    passed.length = steps.length := by
  induction h with
  | none => rfl
  | next _ _ _ _ ih => exact congrArg (· + 1) ih

/-- Playing that ended at its first step. -/
theorem Played.endsWithin {w : Watch} {index : Nat} {s : Step} {first rest : List Step}
    {x y : Clock × World σ} {played : List Turn} {r : Report}
    (h : Played stage runner id stack depth w index (s :: (first ++ rest)) x played r y)
    (halts : ∀ t ∈ played, t.Halts) : r.EndsWithin (s :: first) := by
  have unsuccessful : ∀ {o : Outcome}, o.isFailed = true → ∃ i < (s :: first).length,
      ∀ (j : Nat) (o' : Outcome), i ≤ j →
        (o :: Report.skippedFrom (index + 1) (first ++ rest))[j]? = some o' → o'.status ≠ .success := by
    intro o failed
    refine ⟨0, Nat.zero_lt_succ _, fun j o' _ ho => ?_⟩
    obtain _ | j := j
    · cases ho
      intro hsuccess
      rw [Outcome.isFailed, hsuccess] at failed
      cases failed
    · exact Report.ne_success_of_skippedFrom ho
  have failedBy : ∀ {t : Turn} {e : Failure} {y : Clock × World σ},
      Turned stage runner id stack depth w index s x t y → t.failure = some e →
        t.outcome.isFailed = true := by
    intro t e y turned failure
    rw [turned.told.isFailed, failure]
    rfl
  cases h with
  | cancelledBefore seen =>
    exact ⟨⟨0, Nat.zero_lt_succ _, fun _ _ _ => Report.ne_success_of_skippedFrom⟩, .inl rfl⟩
  | onward turned goesOn later => exact absurd (halts _ (List.mem_cons_self ..)) goesOn
  | fatal turned failure isFatal => exact ⟨unsuccessful (failedBy turned failure), .inr (.inl rfl)⟩
  | cancelled turned failure => exact ⟨unsuccessful (failedBy turned failure), .inl rfl⟩
  | stopped turned failure mild own stops =>
    have failed := failedBy turned failure
    exact ⟨unsuccessful failed, .inr (.inr ⟨0, s, _, rfl, rfl, failed, stops⟩)⟩

/-- Of the playing of steps: the first of them were passed, or it has ended within these. -/
theorem passed_or_ends {w : Watch} {index : Nat} {first rest : List Step} {x z : Clock × World σ}
    {r : Report}
    (h : stepsFrom stage runner id stack depth index (first ++ rest) w x.1 x.2 = (.done r, z)) :
    (∃ passed y r', Passed stage runner id stack depth w index first x passed y ∧
      stepsFrom stage runner id stack depth (index + first.length) rest w y.1 y.2 = (.done r', z) ∧
      r = r'.afterAll passed) ∨ r.EndsWithin first := by
  induction first generalizing index x r with
  | nil => exact .inl ⟨[], x, r, .none, h, rfl⟩
  | cons s first ih =>
    obtain ⟨c, b⟩ := x
    obtain ⟨c', b'⟩ := z
    cases calm : c.isCancelled with
    | true =>
      rw [List.cons_append, stepsFrom_of_cancelled _ calm] at h
      cases h
      exact .inr ⟨⟨0, Nat.zero_lt_succ _, fun _ _ _ => Report.ne_success_of_skippedFrom⟩, .inl rfl⟩
    | false =>
      rcases stepsFrom_cases h with ⟨played, _, hr, ended, halts⟩ | ⟨_, -, -, left⟩ |
        ⟨t, y, turned, goesOn, hlater⟩
      · cases hr
        exact .inr (ended.endsWithin halts)
      · exact absurd rfl (left r)
      · obtain ⟨r', _, _, hrest, hr⟩ := Timed.done_of_bind hlater
        cases hr
        rcases ih hrest with ⟨passed, y', r'', later, hend, rfl⟩ | ends
        · refine .inl ⟨t :: passed, y', r'', .next calm turned goesOn later, ?_, ?_⟩
          · rw [List.length_cons, Nat.add_comm _ 1, ← Nat.add_assoc]
            exact hend
          · rw [← turned.2.2.1]
            rfl
        · exact .inr (ends.after ..)

section

variable {drain : σ → σ} (drains : stage.browser.Drains drain)

include drains

/-- A step throws away what is left of the requests, so it makes no difference if that was done before. -/
theorem step_drained (place : Place) (step : Step) (w : Watch) (c : Clock) (s : World σ) :
    Play.step stage runner place stack step w c (s.drained drain) =
      Play.step stage runner place stack step w c s := by
  obtain ⟨requests, htaken⟩ := drains.taken c { s with begun := s.begun + 1 }
  obtain ⟨requests', htaken'⟩ := drains.taken c
    { s.drained drain with begun := (s.drained drain).begun + 1 }
  have hagain : drain (s.drained drain).page = drain s.page := drains.again s.page
  rw [hagain] at htaken'
  unfold Play.step
  rw [Timed.bind_of_done (Timed.now_apply ..), Timed.bind_of_done (Timed.begin_apply ..),
    Timed.bind_of_done (htaken' w), Timed.bind_of_done (Timed.now_apply ..),
    Timed.bind_of_done (Timed.begin_apply ..), Timed.bind_of_done (htaken w)]
  rfl

theorem turn_drained (place : Place) (step : Step) (w : Watch) (c : Clock) (s : World σ) :
    turn stage runner place stack step w c (s.drained drain) =
      turn stage runner place stack step w c s := by
  unfold turn
  rw [Timed.bind_of_done (Timed.say_apply ..), Timed.bind_of_done (stage.tell_apply ..),
    Timed.bind_of_done (Timed.say_apply ..), Timed.bind_of_done (stage.tell_apply ..)]
  have hheard := stage.drained_heard drain
    (.stepStarted place.scenario place.depth place.index step.action step.name)
    (s.say [Narration.stepStart place step])
  rw [show (s.drained drain).say _ = (s.say [Narration.stepStart place step]).drained drain from rfl,
    hheard, Timed.bind_apply, Timed.bind_apply, step_drained drains]

/-- Nor does it make one for steps, unless there are none that are begun. -/
theorem stepsFrom_drained (index : Nat) (steps : List Step) (w : Watch) (c : Clock) (s : World σ) :
    ∃ e c' s₁ s₂, stepsFrom stage runner id stack depth index steps w c s = (e, c', s₁) ∧
      stepsFrom stage runner id stack depth index steps w c (s.drained drain) = (e, c', s₂) ∧
      s₁.drained drain = s₂.drained drain := by
  have hagain := drains.drained_drained s
  cases steps with
  | nil => exact ⟨_, _, _, _, rfl, rfl, hagain.symm⟩
  | cons step rest =>
    cases calm : c.isCancelled with
    | true => exact ⟨_, _, _, _, stepsFrom_of_cancelled _ calm, stepsFrom_of_cancelled _ calm, hagain.symm⟩
    | false =>
      have hsame : stepsFrom stage runner id stack depth index (step :: rest) w c (s.drained drain) =
          stepsFrom stage runner id stack depth index (step :: rest) w c s := by
        rw [stepsFrom, Timed.bind_of_done
            (rfl : Timed.isCancelled w c (s.drained drain) = (.done c.isCancelled, c, s.drained drain)),
          Timed.bind_of_done (rfl : Timed.isCancelled w c s = (.done c.isCancelled, c, s)), calm]
        simp only [Bool.false_eq_true, if_false]
        rw [Timed.bind_apply, Timed.bind_apply, turn_drained drains]
      exact ⟨_, _, _, _, rfl, hsame, rfl⟩

end

end Play

/-- A step was played in both worlds, with like outcomes. -/
structure Likeness.Twin (k : Likeness σ) (t t' : Turn) : Prop where
  outcome : ∀ i, k.outcome (t.outcome.at_ i) (t'.outcome.at_ i)
  failure : t.failure = t'.failure
  step : t.step = t'.step

theorem Stage.Shows.drained {stage : Stage σ} {k : Likeness σ} (shows : stage.Shows k)
    (drain : σ → σ) {s t : World σ} (h : k.world s t) : k.world (s.drained drain) (t.drained drain) := by
  have hpage := shows.page (drain s.page) h
  rw [World.drained, World.drained, ← shows.page_eq h]
  exact hpage

theorem Likeness.any_eq_of_twins {k : Likeness σ} {turns turns' : List Turn}
    (h : List.Forall₂ k.Twin turns turns') :
    turns.any (fun t => t.failure.isSome && t.step.counts) =
      turns'.any fun t => t.failure.isSome && t.step.counts := by
  induction h with
  | nil => rfl
  | cons twin _ ih => rw [List.any_cons, List.any_cons, twin.failure, twin.step, ih]

namespace Play

section

variable {stage : Stage σ} {k : Likeness σ} {drain : σ → σ} (admits : stage.Admits stage k)
  (shows : stage.Shows k) (drains : stage.browser.Drains drain)

include admits shows drains

/-- In worlds that are alike once the requests were taken the same steps are passed. What goes wrong in
them is nothing bad, since they would not be passed. -/
theorem Passed.follows {runner : Runner σ} {id : String} {stack : CallStack} {depth index : Nat}
    (runner' : Runner σ) (id' : String) (stack' : CallStack) (depth' index' : Nat) {steps : List Step}
    {w v : Watch} {x y : Clock × World σ} {passed : List Turn} {t : World σ} (loose : k.loose)
    (hfit : ∀ step ∈ steps, k.fit step)
    (hrunner : ∀ step ∈ steps, ∀ other, step.instruction.reference? = some other →
      k.Reports (runner other stack depth) (runner' other stack' depth'))
    (covers : w.Covers v) (h : Passed stage runner id stack depth w index steps x passed y)
    (hst : k.world (x.2.drained drain) (t.drained drain)) :
    ∃ passed' t', Passed stage runner' id' stack' depth' v index' steps (x.1, t) passed' (y.1, t') ∧
      k.world (y.2.drained drain) (t'.drained drain) ∧ List.Forall₂ k.Twin passed passed' := by
  induction h generalizing index' t with
  | none => exact ⟨[], t, .none, hst, .nil⟩
  | @next index step rest x y z u passed calm turned goesOn later ih =>
    obtain ⟨place, stack₁, step₁, outcome, failure⟩ := u
    obtain ⟨c', s'⟩ := y
    obtain ⟨rfl, rfl, rfl, hturn⟩ := turned
    have hturns : Follows k.world (k.Ended ⟨id, index, depth⟩ ⟨id', index', depth'⟩) k.BadEnd
        (turn stage runner ⟨id, index, depth⟩ stack₁ step₁)
        (turn stage runner' ⟨id', index', depth'⟩ stack' step₁) :=
      follows_turn admits (.inl loose) (hfit _ (List.mem_cons_self ..)) (hrunner _ (List.mem_cons_self ..))
    have hfollows := hturns w v covers x.1 _ _ hst
    rw [turn_drained drains, turn_drained drains, hturn] at hfollows
    obtain ⟨-, ⟨e, hfailure, hbad⟩ | ⟨⟨outcome', failure'⟩, t', hturn', hworld, hended⟩⟩ := hfollows
    · exact absurd ⟨e, hfailure, .inl (admits.fatal hbad)⟩ goesOn
    obtain rfl : failure = failure' := hended.failure
    obtain ⟨passed', t'', later', hworld', twins⟩ := ih (index' + 1)
      (fun s hs => hfit s (List.mem_cons_of_mem _ hs)) (fun s hs => hrunner s (List.mem_cons_of_mem _ hs))
      (shows.drained drain hworld)
    refine ⟨⟨⟨id', index', depth'⟩, stack', step₁, outcome', failure⟩ :: passed', t'', ?_, hworld', ?_⟩
    · refine .next calm ⟨rfl, rfl, rfl, hturn'⟩ ?_ later'
      rintro ⟨e, hfailure, hhalts⟩
      exact goesOn ⟨e, hfailure, hhalts⟩
    · exact .cons ⟨hended.outcome, rfl, rfl⟩ twins

/-- So are the steps that come last. -/
theorem stepsFrom_follows {runner : Runner σ} {id : String} {stack : CallStack} {depth index : Nat}
    (runner' : Runner σ) (stack' : CallStack) (depth' index' : Nat) {steps : List Step} {w v : Watch}
    {c c' : Clock} {s s' t : World σ} {r : Report} (loose : k.loose) (fair : ∀ e, ¬ k.bad e)
    (hfit : ∀ step ∈ steps, k.fit step)
    (hrunner : ∀ step ∈ steps, ∀ other, step.instruction.reference? = some other →
      k.Reports (runner other stack depth) (runner' other stack' depth'))
    (covers : w.Covers v)
    (h : stepsFrom stage runner id stack depth index steps w c s = (.done r, c', s'))
    (hst : k.world (s.drained drain) (t.drained drain)) :
    ∃ r' t', stepsFrom stage runner' id stack' depth' index' steps v c t = (.done r', c', t') ∧
      k.world (s'.drained drain) (t'.drained drain) ∧ k.ReportFrom index index' r r' := by
  obtain ⟨e, c₁, s₁, s₂, hs₁, hs₂, hsame⟩ :=
    @stepsFrom_drained σ stage runner id stack depth drain drains index steps w c s
  obtain ⟨rfl, rfl, rfl⟩ : e = .done r ∧ c₁ = c' ∧ s₁ = s' := by
    rw [h] at hs₁
    cases hs₁
    exact ⟨rfl, rfl, rfl⟩
  have hsteps : Follows k.world (k.ReportFrom index index') k.BadReport
      (stepsFrom stage runner id stack depth index steps)
      (stepsFrom stage runner' id stack' depth' index' steps) :=
    follows_stepsFrom admits (.inl loose) hfit hrunner
  have hfollows := hsteps w v covers c _ _ hst
  rw [hs₂] at hfollows
  obtain ⟨-, ⟨e, -, hbad⟩ | ⟨r', t₂, ht₂, hworld, hreport⟩⟩ := hfollows
  · exact absurd hbad (fair e)
  obtain ⟨e', c₂, t₁, t₂', ht₁, ht₂', hsame'⟩ :=
    @stepsFrom_drained σ stage runner' id stack' depth' drain drains index' steps v c t
  rw [ht₂] at ht₂'
  cases ht₂'
  refine ⟨r', t₁, ht₁, ?_, hreport⟩
  rw [hsame, hsame']
  exact shows.drained drain hworld

end

end Play

end Rehearsal
