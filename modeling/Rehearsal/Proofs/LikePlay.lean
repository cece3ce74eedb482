import Rehearsal.Proofs.LikeDeeds

/-! # Playing that goes alike

A step, the steps of a scenario and a scenario that is entered, in worlds that are alike. The steps of
the two sides may have different numbers; then so do their outcomes, which are otherwise alike.
-/
namespace Rehearsal

open Timed (AtOnce Both Follows Never Whatever)

variable {σ α β : Type} {stage stage' : Stage σ} {k : Likeness σ}

theorem Timed.Follows.forIn {S T : Type} {R : S → T → Prop} {B : β → Prop} {l : List α} {b : β}
    {f : α → β → Timed S (ForInStep β)} {g : α → β → Timed T (ForInStep β)}
    (h : ∀ a b, Follows R Eq Never (f a b) (g a b)) :
    Follows R Eq B (forIn l b f) (forIn l b g) := by
  induction l generalizing b with
  | nil => exact .pure rfl
  | cons a l ih =>
    rw [List.forIn_cons, List.forIn_cons]
    refine .andThen (h a b) ?_
    rintro r _ rfl
    cases r with
    | done b => exact .pure rfl
    | yield b => exact ih

def Outcome.at_ (o : Outcome) (index : Nat) : Outcome := { o with index }

theorem Outcome.at_index (o : Outcome) : o.at_ o.index = o := by
  cases o
  rfl

namespace Likeness

/-- The outcomes of a step at one place and of one at another, the same but for their numbers. -/
structure Renumbered (k : Likeness σ) (index index' : Nat) (o o' : Outcome) : Prop where
  outcome : ∀ i, k.outcome (o.at_ i) (o'.at_ i)
  index : o.index + index' = o'.index + index

/-- What became of steps numbered from `index` on, and of steps numbered from `index'` on. -/
structure ReportFrom (k : Likeness σ) (index index' : Nat) (r r' : Rehearsal.Report) : Prop where
  outcomes : List.Forall₂ (k.Renumbered index index') r.outcomes r'.outcomes
  failed : r.failed = r'.failed
  cancelled : r.cancelled = r'.cancelled
  fatal : r.fatal = r'.fatal

/-- The outcomes of a step that was played on both sides, with its failures. -/
structure Ended (k : Likeness σ) (place place' : Place) (r r' : Outcome × Option Failure) : Prop where
  outcome : ∀ i, k.outcome (r.1.at_ i) (r'.1.at_ i)
  index : r.1.index = place.index
  index' : r'.1.index = place'.index
  failure : r.2 = r'.2

def BadEnd (k : Likeness σ) (r : Outcome × Option Failure) : Prop := ∃ e, r.2 = some e ∧ k.bad e

theorem Renumbered.same {index : Nat} {o o' : Outcome} (h : k.Renumbered index index o o') :
    k.outcome o o' := by
  have houtcome := h.outcome o.index
  rw [o.at_index, Nat.add_right_cancel h.index, o'.at_index] at houtcome
  exact houtcome

theorem ReportFrom.same {index : Nat} {r r' : Rehearsal.Report} (h : k.ReportFrom index index r r') :
    k.Report r r' :=
  ⟨h.outcomes.imp fun _ _ ho => ho.same, h.failed, h.cancelled, h.fatal⟩

theorem ReportFrom.status {index index' : Nat} {r r' : Rehearsal.Report}
    (h : k.ReportFrom index index' r r') : r.status = r'.status := by
  unfold Report.status
  rw [h.fatal, h.cancelled, h.failed]

theorem Ended.renumbered {place place' : Place} {r r' : Outcome × Option Failure}
    (h : k.Ended place place' r r') : k.Renumbered place.index place'.index r.1 r'.1 :=
  ⟨h.outcome, by rw [h.index, h.index', Nat.add_comm]⟩

theorem Renumbered.next {index index' : Nat} {o o' : Outcome}
    (h : k.Renumbered (index + 1) (index' + 1) o o') : k.Renumbered index index' o o' := by
  refine ⟨h.outcome, ?_⟩
  have hindex := h.index
  omega

theorem ReportFrom.after {index index' : Nat} {r r' : Rehearsal.Report} {o o' : Outcome}
    (h : k.ReportFrom (index + 1) (index' + 1) r r') (ho : k.Renumbered index index' o o')
    (failed : Bool) : k.ReportFrom index index' (r.after o failed) (r'.after o' failed) where
  outcomes := .cons ho (h.outcomes.imp fun _ _ ho => ho.next)
  failed := congrArg (failed || ·) h.failed
  cancelled := h.cancelled
  fatal := h.fatal

end Likeness

section

variable (admits : stage.Admits stage' k)

include admits

theorem renumbered_skippedFrom (index index' : Nat) (steps : List Step) :
    List.Forall₂ (k.Renumbered index index') (Report.skippedFrom index steps)
      (Report.skippedFrom index' steps) := by
  induction steps generalizing index index' with
  | nil => exact .nil
  | cons step rest ih =>
    refine .cons ⟨?_, Nat.add_comm _ _⟩ ((ih (index + 1) (index' + 1)).imp fun _ _ h => h.next)
    exact fun i => admits.outcome i step.action step.name .skipped none 0 [] Likeness.Trace.empty

namespace Play

variable {runner runner' : Runner σ} {place place' : Place} {stack stack' : CallStack}
  {stem stem' : String}

omit admits in
theorem follows_guarded {R : World σ × Trace → World σ × Trace → Prop}
    {work work' : Timed (World σ × Trace) (Except Failure Unit)}
    (h : Follows R (Likewise Eq) (Answers Never k.bad) work work') (task : Task) :
    Follows R (Likewise Eq) (Answers Never k.bad) (guarded task work) (guarded task work') := by
  unfold guarded
  split
  · exact h
  · refine .bind h.within ?_ ?_
    · intro r r' hr
      cases hr with
      | none => exact .pure rfl
      | some hr => exact .pure hr
    · rintro r ⟨a, rfl, ha⟩
      exact .pure ha

theorem follows_attempt (hplace : k.Loosely place place') {step : Step} (hfit : k.fit step)
    (hrunner : ∀ id, step.instruction.reference? = some id →
      k.Reports (runner id stack place.depth) (runner' id stack' place'.depth))
    (hstem : IsStem stem) (hstem' : IsStem stem') (hstems : k.Loosely stem stem') :
    Follows (Both k.world k.Trace) (Likewise Eq) (Answers Never k.bad)
      (attempt stage runner place stack stem step) (attempt stage' runner' place' stack' stem' step) := by
  rintro w v hw c ⟨s, t⟩ ⟨s', t'⟩ ⟨hs, ht⟩
  unfold attempt
  rw [Timed.bind_of_done (Timed.onFirst_of_done (Timed.desk_apply ..) t),
    Timed.bind_of_done (Timed.onFirst_of_done (Timed.desk_apply ..) t'),
    Timed.bind_of_done (Timed.onFirst_of_done (Timed.scope_apply ..) t),
    Timed.bind_of_done (Timed.onFirst_of_done (Timed.scope_apply ..) t'),
    Timed.bind_of_done (Timed.onFirst_of_done (Timed.say_apply ..) t),
    Timed.bind_of_done (Timed.onFirst_of_done (Timed.say_apply ..) t'),
    admits.task hfit hs, admits.scope_eq hs, admits.references]
  have hsaid : Both k.world k.Trace
      (s.say (stage'.referenceLines s'.scope step.instruction), t)
      (s'.say (stage'.referenceLines s'.scope step.instruction), t') := ⟨admits.say .rfl hs, ht⟩
  refine Follows.mono (B := Answers Never k.bad) ?_ (fun _ _ h => h) (fun _ h => h) w v hw c _ _ hsaid
  rw [← admits.task hfit hs]
  cases htask : stage.task s.desk s.scope step with
  | error e => exact .pure rfl
  | ok task =>
    refine .andThen (.forIn fun name _ => ?_) fun _ _ _ => ?_
    · refine .andThen (.onFirst (follows_say admits.toTells .rfl)) fun _ _ _ => ?_
      exact .andThen (follows_note admits.toTells hplace (.same _)) fun _ _ _ => .pure rfl
    have hdeed : Work.Alike k Eq
        (Perform.deed stage runner place stack stem task.timeout task.deed)
        (Perform.deed stage' runner' place' stack' stem' task.timeout task.deed) :=
      Perform.alike_deed admits hplace
        (fun id hid => hrunner id (Bench.reference?_of_task htask ▸ hid))
        (fun path hpath s t hst => admits.file hfit hst htask hpath) task.timeout
        fun hdeed => admits.shot runner runner' stack stack' task.timeout hfit htask hdeed hplace hstem
          hstem' hstems
    refine .bind (follows_guarded hdeed task).untilCancelled ?_ ?_
    · intro r r' hr
      cases hr with
      | none => exact .pure rfl
      | some hr => exact .pure hr
    · rintro r ⟨a, rfl, ha⟩
      exact .pure ha

theorem follows_step (hplace : k.Loosely place place') {step : Step} (hfit : k.fit step)
    (hrunner : ∀ id, step.instruction.reference? = some id →
      k.Reports (runner id stack place.depth) (runner' id stack' place'.depth)) :
    Follows k.world (k.Ended place place') k.BadEnd (Play.step stage runner place stack step)
      (Play.step stage' runner' place' stack' step) := by
  refine .andThen (.read (Q := Eq) fun _ _ _ _ => rfl) ?_
  rintro started _ rfl
  refine .andThen (.act (Q := k.Loosely) fun c s t hst =>
    ⟨admits.begun hst, (admits.begun_eq hst).map (· + 1)⟩) ?_
  intro number number' hnumber
  have hstem : IsStem (Play.stem number step.action) := ⟨_, _, rfl⟩
  have hstem' : IsStem (Play.stem number' step.action) := ⟨_, _, rfl⟩
  have hstems := hnumber.map fun number => Play.stem number step.action
  refine .andThen (admits.call .takeRequests) fun _ _ _ => ?_
  refine .bind (.withOwn (Q := Eq) (B := fun a => ∃ e, a.1 = some e ∧ k.bad e)
    (Likeness.Trace.empty (k := k)) ?_) ?_ ?_
  · refine .bind (follows_attempt admits hplace hfit hrunner hstem hstem' hstems) ?_ ?_
    · intro r r' hr
      obtain rfl := Likewise.eq hr
      refine .andThen (admits.pictured step.action r hstem hstem' hstems) fun _ _ _ => ?_
      refine .andThen (.onFirst (admits.call .takeRequests)) ?_
      rintro requests _ rfl
      cases r with
      | ok u => exact .pure rfl
      | error e => exact .andThen (follows_note admits.toTells hplace (.same _)) fun _ _ _ => .pure rfl
    · intro r hr
      cases r with
      | ok u => exact hr.elim
      | error e =>
        -- After a bad failure no picture is taken, and the requests are there at once.
        have hbad : k.bad e := hr
        refine .bind (P := Whatever) ?_ fun _ _ => ?_
        · simp only [captureAfter, admits.fatal hbad, Bool.true_or, if_true]
          exact .pure trivial
        refine .bind (P := Whatever) (admits.take hbad).onFirst fun requests _ => ?_
        refine .bind (P := Whatever) ?_ fun _ _ => .pure ⟨e, rfl, hbad⟩
        rintro c ⟨s, t⟩
        exact ⟨(), _, fun w => stage.note_apply .., trivial⟩
  · rintro ⟨⟨failure, requests⟩, trace⟩ ⟨⟨_, _⟩, trace'⟩ ⟨⟨⟩, htrace⟩
    refine .andThen (.read (Q := Eq) fun _ _ _ _ => rfl) ?_
    rintro ended _ rfl
    exact .pure ⟨fun i => admits.outcome i _ _ _ _ _ _ htrace, rfl, rfl, rfl⟩
  · rintro ⟨⟨failure, requests⟩, trace⟩ ⟨e, hfailure, hbad⟩
    refine .bind (P := Whatever) (.act fun _ _ => trivial) fun ended _ => ?_
    exact .pure ⟨e, hfailure, hbad⟩

theorem follows_turn (h : k.Loosely (place, stack) (place', stack')) {step : Step} (hfit : k.fit step)
    (hrunner : ∀ id, step.instruction.reference? = some id →
      k.Reports (runner id stack place.depth) (runner' id stack' place'.depth)) :
    Follows k.world (k.Ended place place') k.BadEnd (turn stage runner place stack step)
      (turn stage' runner' place' stack' step) := by
  have hplace : k.Loosely place place' := h.map Prod.fst
  refine .andThen (follows_say admits.toTells
    (hplace.map fun p => [Narration.stepStart p step])) fun _ _ _ => ?_
  refine .andThen (follows_tell admits.toTells (hplace.map fun p =>
    Event.stepStarted p.scenario p.depth p.index step.action step.name)) fun _ _ _ => ?_
  refine .bind (follows_step admits hplace hfit hrunner) ?_ ?_
  · rintro ⟨outcome, failure⟩ ⟨outcome', _⟩ hended
    obtain rfl : failure = _ := hended.failure
    have houtcome : (place, stack) = (place', stack') → k.outcome outcome outcome' := by
      intro heq
      obtain ⟨rfl, rfl⟩ := Prod.mk.inj heq
      exact hended.renumbered.same
    intro w v _ c s t hst
    simp only
    rw [Timed.bind_of_done (Timed.say_apply ..), Timed.bind_of_done (stage.tell_apply ..),
      Timed.bind_of_done (Timed.say_apply ..), Timed.bind_of_done (stage'.tell_apply ..)]
    exact ⟨.refl w c, .inr ⟨_, _, rfl, admits.closes h houtcome hst, hended⟩⟩
  · rintro ⟨outcome, failure⟩ hbad
    refine .bind (P := Whatever) (.modify _) fun _ _ => ?_
    refine .bind (P := Whatever) (fun c s => ⟨_, _, fun w => stage.tell_apply .., trivial⟩) fun _ _ => ?_
    exact .bind (P := Whatever) (.modify _) fun _ _ => .pure hbad

theorem follows_stepsFrom {id : String} {depth depth' index index' : Nat} {steps : List Step}
    (h : k.Loosely (stack, depth, index) (stack', depth', index')) (hfit : ∀ step ∈ steps, k.fit step)
    (hrunner : ∀ step ∈ steps, ∀ id, step.instruction.reference? = some id →
      k.Reports (runner id stack depth) (runner' id stack' depth')) :
    Follows k.world (k.ReportFrom index index') k.BadReport
      (stepsFrom stage runner id stack depth index steps)
      (stepsFrom stage' runner' id stack' depth' index' steps) := by
  induction steps generalizing index index' with
  | nil => exact .pure ⟨.nil, rfl, rfl, rfl⟩
  | cons step rest ih =>
    have hrest := ih (h.map fun a => (a.1, a.2.1, a.2.2 + 1))
      (fun s hs => hfit s (List.mem_cons_of_mem _ hs)) fun s hs => hrunner s (List.mem_cons_of_mem _ hs)
    refine .andThen (.read (Q := Eq) fun _ _ _ _ => rfl) ?_
    rintro cancelled _ rfl
    cases cancelled with
    | true => exact .pure ⟨renumbered_skippedFrom admits _ _ _, rfl, rfl, rfl⟩
    | false =>
      refine .bind (follows_turn admits (h.map fun a => (Place.mk id a.2.2 a.2.1, a.1))
        (hfit step (List.mem_cons_self ..)) (hrunner step (List.mem_cons_self ..))) ?_ ?_
      · rintro ⟨outcome, failure⟩ ⟨outcome', _⟩ hended
        obtain rfl : failure = _ := hended.failure
        have hoff : List.Forall₂ (k.Renumbered index index')
            (outcome :: Report.skippedFrom (index + 1) rest)
            (outcome' :: Report.skippedFrom (index' + 1) rest) :=
          .cons hended.renumbered
            ((renumbered_skippedFrom admits _ _ _).imp fun _ _ ho => ho.next)
        have hafter : ∀ failed, Follows k.world (k.ReportFrom index index') k.BadReport
            (do
              let report ← stepsFrom stage runner id stack depth (index + 1) rest
              return report.after outcome failed)
            (do
              let report ← stepsFrom stage' runner' id stack' depth' (index' + 1) rest
              return report.after outcome' failed) := by
          intro failed
          refine .bind hrest ?_ ?_
          · intro r r' hr
            exact .pure (hr.after hended.renumbered failed)
          · intro r hr
            exact .pure hr
        cases failure with
        | none => exact hafter false
        | some e =>
          simp only
          split
          · exact .pure ⟨hoff, rfl, rfl, rfl⟩
          split
          · exact .pure ⟨hoff, rfl, rfl, rfl⟩
          split
          · exact hafter step.counts
          · exact .pure ⟨hoff, rfl, rfl, rfl⟩
      · rintro ⟨outcome, failure⟩ ⟨e, hfailure, hbad⟩
        obtain rfl : failure = some e := hfailure
        simp only [admits.fatal hbad, if_true]
        exact .pure ⟨e, rfl, hbad⟩

/-- A scenario is entered alike if it is on neither stack, on both for the same reason, or if its being
on the first is bad. -/
theorem follows_enter {id : String} {depth depth' : Nat} (hsub : stack'.ids ⊆ stack.ids)
    (hcircle : stack = stack' ∨ ∀ chain, k.bad (.cyclicReference chain))
    (h : k.Loosely (stack, depth) (stack', depth'))
    (hplay : ∀ scenario s t, k.world s t → stack.contains id = false →
      (stage.scenarios.load s.desk id).1 = .ok (some scenario) →
      ∀ step ∈ scenario.steps, k.fit step ∧ ∀ other, step.instruction.reference? = some other →
        k.Reports (runner other (stack.push id) (depth + 1))
          (runner' other (stack'.push id) (depth' + 1))) :
    k.Reports (enter stage runner id stack depth) (enter stage' runner' id stack' depth') := by
  intro w v hw c s t hst
  unfold enter
  cases hon : stack.contains id with
  | true =>
    rcases hcircle with rfl | hbad
    · rw [hon]
      refine Follows.andThen (follows_say admits.toTells .rfl) (fun _ _ _ => ?_) w v hw c s t hst
      exact .pure rfl
    · exact ⟨.refl w c, .inl (hbad _)⟩
  | false =>
    have hoff : stack'.contains id = false := by
      refine Bool.eq_false_iff.mpr fun h => ?_
      rw [CallStack.contains, List.contains_iff_mem] at h
      have hmem := List.contains_iff_mem.mpr (hsub h)
      rw [CallStack.contains, hmem] at hon
      cases hon
    rw [hoff]
    rw [if_neg Bool.false_ne_true, if_neg Bool.false_ne_true]
    rw [Timed.bind_of_done (Timed.desk_apply ..), Timed.bind_of_done (Timed.desk_apply ..)]
    obtain ⟨hanswer, hlines⟩ := admits.load id hst
    have hplay := fun scenario => hplay scenario s t hst hon
    generalize stage.scenarios.load s.desk id = found at hanswer hlines hplay
    generalize stage'.scenarios.load t.desk id = found' at hanswer hlines
    obtain ⟨answer, lines⟩ := found
    obtain ⟨_, lines'⟩ := found'
    obtain rfl : answer = _ := hanswer
    refine Follows.andThen (follows_say admits.toTells hlines) (fun _ _ _ => ?_) w v hw c s t hst
    rcases answer with e | _ | scenario
    · exact .pure rfl
    · exact .pure rfl
    · have hlevel := h.map fun a => [LogLine.info ("📂 子场景 " ++ scenario.displayName ++ " 开始 (" ++
        Text.decimal scenario.steps.length ++ " 步, 层级 " ++ Text.decimal (a.2 + 1) ++ ")")]
      refine .andThen (follows_say admits.toTells hlevel) fun _ _ _ => ?_
      refine .bind (follows_stepsFrom admits (h.map fun a => (a.1.push id, a.2 + 1, 0))
        (fun step hstep => (hplay scenario rfl step hstep).1)
        fun step hstep => (hplay scenario rfl step hstep).2) ?_ ?_
      · intro r r' hr
        rw [hr.status]
        exact .andThen (follows_say admits.toTells .rfl) fun _ _ _ => .pure hr.same
      · intro r hr
        exact .bind (P := Whatever) (.modify _) fun _ _ => .pure hr

end Play

end

end Rehearsal
