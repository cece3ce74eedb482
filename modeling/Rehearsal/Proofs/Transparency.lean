import Rehearsal.Proofs.Anatomy
import Rehearsal.Proofs.Asking
import Rehearsal.Proofs.Nesting
import Rehearsal.Proofs.Overlooking
import Rehearsal.Proofs.Passing

/-! # Scenarios in the place of their calls

A step that has a scenario played could be replaced by the steps of that scenario: when it succeeds, and
none of the failures in it would have ended the playing, the browser is asked for the same at the same
moments, and the same is left behind. What differs are the numbers of the steps, and with them the names
of their pictures.
-/
namespace Rehearsal

open Timed (AtOnce Follows Never Whatever)

variable {σ : Type} {stage : Stage σ}

/-- There are so many scenarios to be found, and they are listed at every desk of the run. -/
theorem Stage.Steady.finds {d : Desk} (steady : stage.Steady d) :
    ∃ ids, stage.FindsOnly d ids ∧ ∀ d', stage.Reaches d d' → ids ⊆ stage.scenarios.ids d' := by
  classical
  let ids := (stage.scenarios.ids d).filter fun id =>
    ∃ scenario, (stage.scenarios.load d id).1 = .ok (some scenario)
  refine ⟨ids, ?_, ?_⟩
  · intro d' reached id scenario hload
    rw [steady d' reached] at hload
    exact List.mem_filter.mpr ⟨stage.scenarios.listed hload, decide_eq_true ⟨scenario, hload⟩⟩
  · intro d' reached id hid
    obtain ⟨scenario, hload⟩ := of_decide_eq_true (List.mem_filter.mp hid).2
    rw [← steady d' reached] at hload
    exact stage.scenarios.listed hload

theorem CallStack.room_le_of_subset {ids ids' : List String} (stack : CallStack) (h : ids ⊆ ids') :
    stack.room ids ≤ ids'.length := by
  have hroom : stack.room ids ≤ ids.toFinset.card := Finset.card_filter_le ..
  have hcard : ids.toFinset.card ≤ ids'.toFinset.card :=
    Finset.card_le_card fun id hid => List.mem_toFinset.mpr (h (List.mem_toFinset.mp hid))
  exact hroom.trans (hcard.trans (List.toFinset_card_le ids'))

/-- The worlds have the same page, desk and variables. -/
structure World.Shares (s t : World σ) : Prop where
  page : s.page = t.page
  desk : s.desk = t.desk
  scope : s.scope = t.scope

theorem World.Shares.trans {s t u : World σ} (h : s.Shares t) (h' : t.Shares u) : s.Shares u :=
  ⟨h.page.trans h'.page, h.desk.trans h'.desk, h.scope.trans h'.scope⟩

theorem World.Shares.drained {s t : World σ} (drain : σ → σ) (h : s.Shares t) :
    (s.drained drain).Shares (t.drained drain) :=
  ⟨congrArg drain h.page, h.desk, h.scope⟩

namespace Play

section

variable {runner : Runner σ} {place : Place} {stack : CallStack} {step : Step}

/-- An attempt that had a scenario played with success did nothing else, and knows how it was played. -/
theorem played_of_attempt {id stem : String} (instruction : step.instruction = .runScenario id)
    {w : Watch} {c c' : Clock} {s s' : World σ} {trace : Trace}
    (h : attempt stage runner place stack stem step w c (s, .empty) = (.done (.ok ()), c', s', trace)) :
    ∃ report s₀, runner id stack place.depth { w with cancellable := true } c s₀ =
        (.done (.ok report), c', s') ∧ s.Shares s₀ ∧
      trace.children = report.outcomes ∧ report.settle id = .ok () := by
  unfold attempt at h
  rw [Timed.bind_of_done (Timed.onFirst_of_done (Timed.desk_apply ..) _),
    Timed.bind_of_done (Timed.onFirst_of_done (Timed.scope_apply ..) _),
    Timed.bind_of_done (Timed.onFirst_of_done (Timed.say_apply ..) _)] at h
  have made : stage.task s.desk s.scope step = .ok
      ⟨step.action, step.options.timeout.getD stage.settings.defaultTimeout, .runScenario id, []⟩ := by
    unfold Bench.task Bench.deed
    rw [instruction]
    rfl
  rw [made] at h
  obtain ⟨u, _, _, hwarned, h⟩ := Timed.done_of_bind h
  cases hwarned
  obtain ⟨r, c₁, x₁, hwork, hr⟩ := Timed.done_of_bind h
  rcases Timed.done_of_untilCancelled hwork with ⟨a, rfl, hdone⟩ | ⟨rfl, -⟩
  · obtain ⟨rfl, rfl, rfl⟩ : a = .ok () ∧ c₁ = c' ∧ x₁ = (s', trace) := by
      cases hr
      exact ⟨rfl, rfl, rfl⟩
    have unguarded : ∀ work : Timed (World σ × Trace) (Except Failure Unit),
        guarded ⟨step.action, step.options.timeout.getD stage.settings.defaultTimeout, .runScenario id, []⟩
          work = work := fun _ => rfl
    rw [unguarded, run_runScenario] at hdone
    rcases answer_of_perform (x := (c, _)) (y := (_, s', trace)) hdone with
      ⟨e, he, -⟩ | ⟨report, hsettle, htrace, hrunner⟩
    · cases he
    · refine ⟨report, _, hrunner, ⟨rfl, rfl, rfl⟩, ?_, hsettle.symm⟩
      exact congrArg Trace.children htrace
  · cases hr

/-- What is known of a turn in which a scenario was played with success: the scenario was played from a
world with the same desk and variables, from whose page the requests were taken, and so it was left. -/
theorem played_of_turned {id scenario : String} {depth index : Nat} {drain : σ → σ}
    (drains : stage.browser.Drains drain) {w : Watch} {x y : Clock × World σ} {t : Turn}
    (turned : Turned stage runner scenario stack depth w index step x t y)
    (instruction : step.instruction = .runScenario id) (success : t.failure = none) :
    ∃ report s s', runner id stack depth { w with cancellable := true } x.1 s =
        (.done (.ok report), y.1, s') ∧
      (x.2.drained drain).Shares s ∧ (s'.drained drain).Shares y.2 ∧
      t.outcome.children = report.outcomes ∧ report.settle id = .ok () := by
  obtain @⟨stem, old, requests, r, millis, a, d, b, b', hempty, hattempt, hcapture, htake, -, hfailure,
    houtcome, hcloses⟩ := anatomy_of_turn turned.taken
  obtain ⟨hplace, hstack, rfl, -⟩ := turned
  have hr : r = .ok () := by
    cases r with
    | ok u => rfl
    | error e =>
      rw [success] at hfailure
      cases hfailure
  subst hr
  obtain rfl := drains.left hempty
  obtain ⟨c', s', trace⟩ := b
  obtain ⟨report, s₀, hrunner, hshares, hchildren, hsettle⟩ := played_of_attempt instruction hattempt
  -- No picture is taken of such a step.
  have hquiet : captureAfter stage t.step.action stem (.ok ()) = pure () := by
    rw [captureAfter, Step.action, instruction]
    show (if (_ && false) = true then _ else _) = _
    rw [Bool.and_false]
    rfl
  rw [hquiet] at hcapture
  cases hcapture
  obtain rfl := drains.left htake
  obtain rfl : t.place.depth = depth := congrArg Place.depth hplace
  subst hstack
  subst hcloses
  refine ⟨report, s₀, s', hrunner, ⟨?_, ?_, ?_⟩, ⟨?_, ?_, ?_⟩, ?_, hsettle⟩
  · exact (congrArg drain (stage.page_opens ..)).symm.trans hshares.page
  · exact (stage.desk_opens t.place t.step x.2).symm.trans hshares.desk
  · exact (stage.scope_opens t.place t.step x.2).symm.trans hshares.scope
  · exact (stage.page_closes ..).symm
  · exact (stage.desk_closes ..).symm
  · exact (stage.scope_closes ..).symm
  · rw [houtcome]
    exact hchildren

theorem steps_of_enter {id : String} {depth : Nat} {w : Watch} {c c' : Clock} {s s' : World σ}
    {report : Report}
    (h : enter stage runner id stack depth w c s = (.done (.ok report), c', s')) :
    ∃ scenario s₀ s₁, stack.contains id = false ∧
      (stage.scenarios.load s.desk id).1 = .ok (some scenario) ∧
      stepsFrom stage runner scenario.id (stack.push id) (depth + 1) 0 scenario.steps w c s₀ =
        (.done report, c', s₁) ∧ s.Shares s₀ ∧ s₁.Shares s' := by
  unfold enter at h
  split at h
  · cases h
  rename_i hoff
  rw [Timed.bind_of_done (Timed.desk_apply ..)] at h
  generalize hfound : stage.scenarios.load s.desk id = found at h
  obtain ⟨answer, lines⟩ := found
  simp only at h
  rw [Timed.bind_of_done (Timed.say_apply ..)] at h
  rcases answer with e | _ | scenario
  · cases h
  · cases h
  · simp only at h
    rw [Timed.bind_of_done (Timed.say_apply ..)] at h
    obtain ⟨r, c₁, s₁, hsteps, h⟩ := Timed.done_of_bind h
    cases h
    exact ⟨scenario, _, s₁, Bool.eq_false_iff.mpr hoff, rfl, hsteps, ⟨rfl, rfl, rfl⟩, rfl, rfl, rfl⟩

/-- Runners of a run go alike with themselves: they go deeper than there is room. -/
theorem follows_runners {k : Likeness σ} (admits : stage.Admits stage k) {ids : List String}
    (finds : ∀ {s t id scenario}, k.world s t →
      (stage.scenarios.load s.desk id).1 = .ok (some scenario) →
      id ∈ ids ∧ ∀ step ∈ scenario.steps, k.fit step)
    (listed : ∀ {s t}, k.world s t →
      ids ⊆ stage.scenarios.ids s.desk ∧ ids ⊆ stage.scenarios.ids t.desk)
    {id : String} (distinct : stack.ids.Nodup) (depth : Nat) :
    k.Reports (Play.runner stage id stack depth) (Play.runner stage id stack depth) := by
  intro w v hw c s t hst
  obtain ⟨hleft, hright⟩ := listed hst
  have hn : stack.room ids < depthLimit stage s.desk :=
    Nat.lt_succ_of_le (stack.room_le_of_subset hleft)
  have hn' : stack.room ids < depthLimit stage t.desk :=
    Nat.lt_succ_of_le (stack.room_le_of_subset hright)
  exact follows_unrolled admits finds (unrolls_nested stage) (unrolls_nested stage) (List.Subset.refl _)
    (.inl rfl) .rfl distinct distinct hn hn' w v hw c s t hst

end

end Play

/-- What was played to its end without a failure that counts. -/
theorem Report.of_settle {report : Report} {id : String} (h : report.settle id = .ok ()) :
    report.fatal = none ∧ report.cancelled = false ∧ report.failed = false := by
  unfold settle at h
  split at h
  · cases h
  rename_i hfatal
  split at h
  · cases h
  rename_i hcancelled
  split at h
  · cases h
  rename_i hfailed
  exact ⟨hfatal, Bool.eq_false_iff.mpr hcancelled, Bool.eq_false_iff.mpr hfailed⟩

/-- The outcomes of two steps are the same but for their numbers and the names of their pictures. -/
def Outcome.Matches (o o' : Outcome) : Prop := (o.at_ 0).Alike (o'.at_ 0)

/-- Of these outcomes the one number `n` is that of a step that had a scenario played, and those have the
outcomes of its steps in its place. -/
def Outcome.Unfolds (n : Nat) (o : Outcome) (outcomes outcomes' : List Outcome) : Prop :=
  ∃ before after before' inside after',
    outcomes = before ++ o :: after ∧ outcomes' = before' ++ (inside ++ after') ∧ before.length = n ∧
      List.Forall₂ Matches before before' ∧ List.Forall₂ Matches o.children inside ∧
      List.Forall₂ Matches after after'

section

variable {d : Desk} {D : Desk → Desk → Prop} {fit : Step → Prop} {bad bad' : Failure → Prop}

/-- Nothing else of a world is compared. -/
theorem Likeness.world_of_shares {s s' t : World σ} (hs : s.Shares s')
    (h : (Likeness.overlooking stage d D fit bad).world s t) :
    (Likeness.overlooking stage d D fit bad').world s' t := by
  obtain ⟨page, scope, desks, reached, reached'⟩ := h
  exact ⟨hs.page ▸ page, hs.scope ▸ scope, hs.desk ▸ desks, hs.desk ▸ reached, reached'⟩

theorem matches_of_twins {turns turns' : List Turn}
    (h : List.Forall₂ (Likeness.overlooking stage d D fit bad).Twin turns turns') :
    List.Forall₂ Outcome.Matches (turns.map (·.outcome)) (turns'.map (·.outcome)) := by
  rw [List.forall₂_map_left_iff, List.forall₂_map_right_iff]
  exact h.imp fun _ _ twin => twin.outcome 0

end

namespace Play

section

variable {runner : Runner σ} {stack : CallStack} {depth : Nat}

/-- A step that succeeded among others: those before it were passed, it was played, and the playing went
on after it. -/
theorem turned_of_success {r : String} {w : Watch} {pre post : List Step} {call : Step} {c c' : Clock}
    {s s' : World σ} {report : Report} {o : Outcome}
    (h : stepsFrom stage runner r stack depth 0 (pre ++ call :: post) w c s = (.done report, c', s'))
    (ho : report.outcomes[pre.length]? = some o) (success : o.status = .success) :
    ∃ passed y t z later, Passed stage runner r stack depth w 0 pre (c, s) passed y ∧
      Turned stage runner r stack depth w pre.length call y t z ∧ t.failure = none ∧ t.outcome = o ∧
      stepsFrom stage runner r stack depth (pre.length + 1) post w z.1 z.2 = (.done later, c', s') ∧
      report = (later.after o false).afterAll passed := by
  rcases passed_or_ends (x := (c, s)) h with ⟨passed, y, rest, hpassed, hrest, rfl⟩ | ends
  · rw [Report.outcomes_afterAll, List.getElem?_append_right (by simp [hpassed.length])] at ho
    simp only [List.length_map, hpassed.length, Nat.sub_self] at ho
    have hcall : stepsFrom stage runner r stack depth (0 + pre.length) ([call] ++ post) w y.1 y.2 =
        (.done rest, c', s') := hrest
    rcases passed_or_ends hcall with ⟨turns, z, later, hturns, hlater, rfl⟩ | ends
    · cases hturns with
      | @next _ _ _ _ z _ t _ calm turned goesOn none =>
        cases none
        rw [Nat.zero_add] at turned hlater
        obtain rfl : t.outcome = o := Option.some.inj ho
        have hfailure : t.failure = none := by
          have hstatus := turned.told.status
          rw [success] at hstatus
          cases hf : t.failure with
          | none => rfl
          | some e =>
            rw [hf] at hstatus
            cases hstatus
        refine ⟨passed, y, t, z, later, hpassed, turned, hfailure, rfl, hlater, ?_⟩
        show ((later.after t.outcome (t.failure.isSome && t.step.counts))).afterAll passed = _
        rw [hfailure]
        rfl
    · obtain ⟨i, hi, hnone⟩ := ends.unsuccessful
      exact absurd success (hnone 0 o (Nat.le_of_lt_succ hi) ho)
  · obtain ⟨i, hi, hnone⟩ := ends.unsuccessful
    exact absurd success (hnone _ o (Nat.le_of_lt hi) ho)

end

section

variable {d : Desk} {D : Desk → Desk → Prop} {fit : Step → Prop} {drain : σ → σ}
  (drains : stage.browser.Drains drain) (overlooks : stage.Overlooks D fit) (steady : stage.Steady d)
  (fits : ∀ id scenario, (stage.scenarios.load d id).1 = .ok (some scenario) →
    ∀ step ∈ scenario.steps, fit step)

include drains

/-- A scenario that was played with success in a turn, none of whose failures would have ended the
playing: its steps were passed, and none of them counts as failed. -/
theorem passed_of_success {id r : String} {stack : CallStack} {depth index : Nat} {w : Watch}
    {call : Step} {callee : Scenario} {x y : Clock × World σ} {t : Turn}
    (turned : Turned stage (Play.runner stage) r stack depth w index call x t y)
    (instruction : call.instruction = .runScenario id) (success : t.failure = none)
    (loaded : (stage.scenarios.load x.2.desk id).1 = .ok (some callee))
    (onward : ∀ (i : Nat) (step : Step) (o : Outcome), callee.steps[i]? = some step →
      t.outcome.children[i]? = some o → o.isFailed = true → step.continues = true) :
    ∃ passed s s', stack.contains id = false ∧
      Passed stage (nested stage (stage.scenarios.ids x.2.desk).length) callee.id (stack.push id)
        (depth + 1) { w with cancellable := true } 0 callee.steps (x.1, s) passed (y.1, s') ∧
      (x.2.drained drain).Shares s ∧ (s'.drained drain).Shares y.2 ∧
      t.outcome.children = passed.map (·.outcome) ∧
      passed.any (fun u => u.failure.isSome && u.step.counts) = false := by
  obtain ⟨c', y⟩ := y
  obtain ⟨report, s, s', hrunner, hbefore, hafter, hchildren, hsettle⟩ :=
    played_of_turned drains turned instruction success
  have hdesk : s.desk = x.2.desk := hbefore.desk.symm
  unfold Play.runner at hrunner
  rw [Timed.bind_of_done (Timed.desk_apply ..)] at hrunner
  obtain ⟨scenario, s₀, s₁, hoff, hload, hsteps, hbefore', hafter'⟩ := steps_of_enter hrunner
  obtain rfl : scenario = callee := by
    rw [hdesk, loaded] at hload
    cases hload
    rfl
  rw [hdesk] at hsteps
  obtain ⟨hfatal, hcancelled, hfailed⟩ := Report.of_settle hsettle
  rw [← List.append_nil scenario.steps] at hsteps
  rcases passed_or_ends (x := (x.1, s₀)) hsteps with
    ⟨passed, ⟨c₁, z⟩, rest, hpassed, hrest, rfl⟩ | ends
  · cases hrest
    refine ⟨passed, s₀, _, hoff, hpassed, hbefore.trans hbefore', ?_, ?_, ?_⟩
    · exact (hafter'.drained drain).trans hafter
    · rw [hchildren, Report.outcomes_afterAll]
      exact List.append_nil _
    · rw [Report.failed_afterAll, Bool.or_eq_false_iff] at hfailed
      exact hfailed.1
  · rcases ends.reason with h | h | ⟨i, step, o, hstep, ho, failed, stops⟩
    · rw [hcancelled] at h
      cases h
    · rw [hfatal] at h
      cases h
    · have hcontinues := onward i step o hstep (by rw [hchildren]; exact ho) failed
      rw [stops] at hcontinues
      cases hcontinues

include overlooks steady

theorem admits_overlooking {bad : Failure → Prop} (fatal : ∀ {e}, bad e → e.isFatal = true) :
    stage.Admits stage (.overlooking stage d D fit bad) :=
  overlooks.admits steady fatal fun _ => drains.atOnce

include fits

omit drains overlooks in
theorem found_of_overlooking {ids : List String} (finds : stage.FindsOnly d ids)
    {bad : Failure → Prop} {s t : World σ} {id : String} {scenario : Scenario}
    (h : (Likeness.overlooking stage d D fit bad).world s t)
    (hload : (stage.scenarios.load s.desk id).1 = .ok (some scenario)) :
    id ∈ ids ∧ ∀ step ∈ scenario.steps, fit step := by
  refine ⟨finds _ h.2.2.2.1 _ _ hload, ?_⟩
  rw [steady _ h.2.2.2.1] at hload
  exact fits _ _ hload

theorem reports_outside (r other : String) :
    (Likeness.overlooking stage d D fit Never).Reports (Play.runner stage other (.root r) 0)
      (Play.runner stage other (.root r) 0) := by
  obtain ⟨ids, finds, listed⟩ := steady.finds
  have admits : stage.Admits stage (.overlooking stage d D fit Never) :=
    admits_overlooking drains overlooks steady fun h => h.elim
  exact follows_runners admits (found_of_overlooking steady fits finds)
    (fun h => ⟨listed _ h.2.2.2.1, listed _ h.2.2.2.2⟩) (List.nodup_singleton r) 0

/-- That a scenario refers to one that is being played. -/
def Circle (e : Failure) : Prop := ∃ chain, e = .cyclicReference chain

omit drains overlooks steady fits in
theorem Circle.isFatal {e : Failure} (h : Circle e) : e.isFatal = true := by
  obtain ⟨chain, rfl⟩ := h
  rfl

/-- Inside the called scenario there is one scenario more on the stack than there would be outside. That
makes a difference only where it calls itself, which is fatal. -/
theorem reports_inside {id r : String} {callee : Scenario} {d' : Desk} (reached : stage.Reaches d d')
    (loaded : (stage.scenarios.load d id).1 = .ok (some callee))
    (off : (CallStack.root r).contains id = false) (other : String) :
    (Likeness.overlooking stage d D fit Circle).Reports
      (nested stage (stage.scenarios.ids d').length other ((CallStack.root r).push id) 1)
      (Play.runner stage other (.root r) 0) := by
  obtain ⟨ids, finds, listed⟩ := steady.finds
  have hid : id ∈ ids := finds d .refl id callee loaded
  have hroom := CallStack.room_push hid off
  have hmost := (CallStack.root r).room_le_of_subset (listed d' reached)
  have admits : stage.Admits stage (.overlooking stage d D fit Circle) :=
    admits_overlooking drains overlooks steady Circle.isFatal
  intro w v hw c s t hst
  have hleast := (CallStack.root r).room_le_of_subset (listed t.desk hst.2.2.2.2)
  have hdepth : (CallStack.root r).room ids < depthLimit stage t.desk := Nat.lt_succ_of_le hleast
  have hdepth' : ((CallStack.root r).push id).room ids < (stage.scenarios.ids d').length := by omega
  exact follows_unrolled admits (found_of_overlooking steady fits finds) (unrolls_nested stage)
    (unrolls_nested stage) (List.subset_append_left ..) (.inr fun chain => ⟨chain, rfl⟩) (.inl trivial)
    (CallStack.nodup_push (List.nodup_singleton r) off) (List.nodup_singleton r) hdepth' hdepth w v hw c s
    t hst

/-- The steps of a run with a call that succeeded, and with the steps that were called for. -/
theorem stepsFrom_unfolded {id r : String} {pre post : List Step} {call : Step} {callee : Scenario}
    {c c' : Clock} {s s' t : World σ} {report : Report} {o : Outcome}
    (instruction : call.instruction = .runScenario id)
    (loaded : (stage.scenarios.load d id).1 = .ok (some callee))
    (hfit : ∀ step ∈ pre ++ call :: post, fit step)
    (hst : (Likeness.overlooking stage d D fit Never).world s t)
    (h : stepsFrom stage (Play.runner stage) r (.root r) 0 0 (pre ++ call :: post) .none c s =
      (.done report, c', s'))
    (ho : report.outcomes[pre.length]? = some o) (success : o.status = .success)
    (onward : ∀ (i : Nat) (step : Step) (o' : Outcome), callee.steps[i]? = some step →
      o.children[i]? = some o' → o'.isFailed = true → step.continues = true) :
    ∃ report' t', stepsFrom stage (Play.runner stage) r (.root r) 0 0 (pre ++ (callee.steps ++ post))
        .none c t = (.done report', c', t') ∧
      (Likeness.overlooking stage d D fit Never).world (s'.drained drain) (t'.drained drain) ∧
      Outcome.Unfolds pre.length o report.outcomes report'.outcomes ∧
      o.children.length = callee.steps.length ∧ report.failed = report'.failed ∧
      report.cancelled = report'.cancelled ∧ report.fatal = report'.fatal := by
  have admits : stage.Admits stage (.overlooking stage d D fit Never) :=
    admits_overlooking drains overlooks steady fun h => h.elim
  have admits' : stage.Admits stage (.overlooking stage d D fit Circle) :=
    admits_overlooking drains overlooks steady Circle.isFatal
  have houtside := reports_outside drains overlooks steady fits r
  obtain ⟨passed, y, u, z, later, hpassed, turned, hfailure, rfl, hlater, rfl⟩ :=
    turned_of_success h ho success
  obtain ⟨passed', t₁, hpassed', hworld₁, twins⟩ :=
    hpassed.follows admits overlooks.shows drains (Play.runner stage) r (.root r) 0 0 trivial
      (fun step hstep => hfit step (List.mem_append_left _ hstep)) (fun _ _ other _ => houtside other)
      (.refl _) (overlooks.shows.drained drain hst)
  have hreached : stage.Reaches d y.2.desk := hworld₁.2.2.2.1
  obtain ⟨inside, b, b', off, hinside, hbefore, hafter, hchildren, hnone⟩ :=
    passed_of_success drains turned instruction hfailure (by rw [steady _ hreached, loaded]) onward
  have hshares := hbefore.drained drain
  rw [drains.drained_drained] at hshares
  obtain ⟨inside', t₂, hinside', hworld₃, twins'⟩ :=
    hinside.follows admits' overlooks.shows drains (Play.runner stage) r (.root r) 0 (0 + pre.length)
      (v := .none) trivial
      (fun step hstep => fits id callee loaded step hstep)
      (fun _ _ other _ => reports_inside drains overlooks steady fits hreached loaded off other)
      (Watch.covers_none _) (Likeness.world_of_shares hshares hworld₁)
  have hshares' := hafter.drained drain
  rw [drains.drained_drained] at hshares'
  obtain ⟨later', t', hlater', hworld₅, hreport⟩ :=
    stepsFrom_follows admits overlooks.shows drains (Play.runner stage) (.root r) 0
      (0 + pre.length + callee.steps.length) (v := .none) trivial (fun _ h => h)
      (fun step hstep => hfit step (List.mem_append_right _ (List.mem_cons_of_mem _ hstep)))
      (fun _ _ other _ => houtside other) (Watch.covers_none _) hlater
      (Likeness.world_of_shares hshares' hworld₃)
  refine ⟨(later'.afterAll inside').afterAll passed', t', ?_, hworld₅, ?_, ?_, ?_, ?_, ?_⟩
  · exact hpassed'.stepsFrom (hinside'.stepsFrom hlater')
  · exact ⟨passed.map (·.outcome), later.outcomes, passed'.map (·.outcome), inside'.map (·.outcome),
      later'.outcomes, Report.outcomes_afterAll .., by
        rw [Report.outcomes_afterAll, Report.outcomes_afterAll], by rw [List.length_map, hpassed.length],
      matches_of_twins twins, hchildren ▸ matches_of_twins twins',
      hreport.outcomes.imp fun _ _ h => h.outcome 0⟩
  · rw [hchildren, List.length_map, hinside.length]
  · rw [Report.failed_afterAll, Report.failed_afterAll, Report.failed_afterAll,
      ← Likeness.any_eq_of_twins twins', hnone, Likeness.any_eq_of_twins twins, ← hreport.failed]
    rfl
  · rw [Report.cancelled_afterAll, Report.cancelled_afterAll, Report.cancelled_afterAll,
      ← hreport.cancelled]
    rfl
  · rw [Report.fatal_afterAll, Report.fatal_afterAll, Report.fatal_afterAll, ← hreport.fatal]
    rfl

end

end Play

namespace Run

/-- A run whose steps were played asks for one thing more: that the recording be ended. -/
theorem run_recorded {asked : σ → List (Nat × Asking)} (records : stage.browser.Records asked)
    {scenario : Scenario} {s : World σ}
    (clear : (Preflight.check stage.scenarios s.desk scenario).1 = .ok ()) (runId : String)
    {c c₁ : Clock} {s₁ : World σ} {report : Report}
    (hsteps : Play.stepsFrom stage (Play.runner stage) scenario.id (.root scenario.id) 0 0
      scenario.steps .none c (onset stage scenario (opened stage scenario runId s)) =
        (.done report, c₁, s₁)) :
    ∃ record c' s', (run stage scenario runId).run c s = (some record, c', s') ∧
      record.status = report.status ∧ record.error = (Ending.ofReport report).error ∧
      record.steps = report.outcomes ∧
      asked s'.page = asked s₁.page ++ [(c₁.now, .finishRecording)] ∧ s'.scope = s₁.scope ∧
      s'.desk = (stage.sink.storeResult s₁.desk record).2 := by
  obtain ⟨video, c₂, s₂, hvideo, hsame⟩ := finishRecording_done stage c₁ s₁
  obtain ⟨record, s', hrecord, hstatus, herror, houtcomes, hpage, hresembles⟩ :=
    conclude_of_recorded scenario runId c.now (.ofReport report) hvideo
  have hrun : (run stage scenario runId).run c s = (some record, c₂, s') := by
    rw [Timed.run, run_of_ok clear runId hsteps, hrecord]
  refine ⟨record, c₂, s', hrun, hstatus, herror, houtcomes, ?_, ?_, ?_⟩
  · obtain ⟨r, s₃, hcall, hpage'⟩ := called_of_finishRecording hvideo
    have hserved := records.served .finishRecording .none c₁ s₁
    rw [hcall] at hserved
    rw [hpage, hpage', hserved]
  · exact hresembles.scope.trans hsame.scope
  · rw [hresembles.desk, hsame.desk]

/-- The playing begins with what was there when the run began, but for the variables. -/
theorem shares_onset (stage : Stage σ) (scenario : Scenario) (runId : String) (s : World σ) :
    ({ s with scope := .empty } : World σ).Shares
      (onset stage scenario (opened stage scenario runId s)) :=
  ⟨(page_opened scenario runId s).symm, (desk_opened scenario runId s).symm, rfl⟩

end Run

/-- A scenario with a step that fails and is not counted, and one that takes a picture. -/
def Scenario.pictured : Scenario :=
  ⟨"a", none, none, none,
    [⟨none, .waitFor "#gone", ⟨true, true, some 100⟩⟩, .ofInstruction .screenshot]⟩

def Stage.recorded : Stage (Unit × List (Nat × Asking)) where
  toBench := (Stage.bare []).toBench
  browser := Browser.still.recorded
  scenarios := .memory [.pictured]
  sessions := .memory
  sink := .memory
  listening := false
  epoch := ⟨0, 0⟩

namespace Run

open Preflight (nowhere)
open Scenario (pictured)

def calling : Scenario :=
  ⟨"r", none, none, none,
    [.ofInstruction .screenshot, .ofInstruction (.runScenario "a"), .ofInstruction .screenshot]⟩

def unfolded : Scenario :=
  { calling with
    steps := .ofInstruction .screenshot :: (pictured.steps ++ [.ofInstruction .screenshot]) }

end Run

end Rehearsal
