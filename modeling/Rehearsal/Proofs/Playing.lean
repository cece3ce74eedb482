import Rehearsal.Proofs.Deeds
import Rehearsal.Run.Play

/-! # What playing maintains

One step, the steps of a scenario, and a scenario that a step has played. Each kind of step has failures
that it is excused for; a step that plays another scenario is blamed for what was fatal there.
-/
namespace Rehearsal

open Timed (Maintains Whatever)

variable {σ α β : Type} {stage : Stage σ} {I : World σ → Prop} {A : Step → Failure → Prop}

def Turn.Excused (A : Step → Failure → Prop) (t : Turn) : Prop := ∀ e, t.failure = some e → A t.step e

/-- Steps are excused for all that their deeds may fail with, and for not being ready. -/
structure Stage.Excuses (stage : Stage σ) (A : Step → Failure → Prop) : Prop where
  tolerates : ∀ step, stage.Tolerates (A step)
  task : ∀ {d scope step e}, stage.task d scope step = .error e → A step e

/-- The invariant survives whatever a step does, and its end if it is excused. -/
structure Stage.Lasting (stage : Stage σ) (A : Step → Failure → Prop) (I : World σ → Prop) : Prop
    extends stage.Stable I where
  close : ∀ {s} {t : Turn}, I s → t.Excused A → I (s.close t)

theorem Stage.excuses_true (stage : Stage σ) : stage.Excuses (fun _ _ => True) where
  tolerates := fun _ => stage.tolerates_true
  task := fun _ => trivial

theorem Timed.Maintains.forIn {S : Type} {I : S → Prop} {l : List α} {b : β}
    {f : α → β → Timed S (ForInStep β)} (h : ∀ a b, Maintains I Whatever (f a b)) :
    Maintains I Whatever (forIn l b f) := by
  induction l generalizing b with
  | nil => exact .pure trivial
  | cons a l ih =>
    rw [List.forIn_cons]
    refine .bind (h a b) fun r _ => ?_
    cases r with
    | done b => exact .pure trivial
    | yield b => exact ih

namespace Play

theorem maintains_guarded {J : World σ × Trace → Prop} {P : Failure → Prop}
    (hP : ∀ e : Failure, e.isFatal = false → P e)
    {work : Timed (World σ × Trace) (Except Failure Unit)}
    (hwork : Maintains J (Answers Whatever P) work) (task : Task) :
    Maintains J (Answers Whatever P) (guarded task work) := by
  unfold guarded
  split
  · exact hwork
  · refine .bind hwork.within fun r hr => ?_
    cases r with
    | none => exact .pure (hP _ rfl)
    | some r => exact .pure (hr r rfl)

section

variable {place : Place} {J : World σ × Trace → Prop} (endures : stage.Endures place J)

include endures

theorem maintains_warnings (names : List String) :
    Maintains J Whatever (forIn names PUnit.unit fun name _ => do
      Timed.onFirst (Timed.say [.warn ("⚠️ 变量 " ++ name ++ " 未定义，按原文保留")])
      stage.note place ("⚠️ 变量 \x7b\x7b" ++ name ++ "\x7d\x7d 未定义，按原文保留")
      pure (ForInStep.yield PUnit.unit)) :=
  .forIn fun _ _ => .bind (maintains_said endures _) fun _ _ =>
    .bind (maintains_note endures _) fun _ _ => .pure trivial

/-- A step is made ready by moves of its own, so what it maintains depends on its deed. -/
theorem maintains_attempt (excuses : stage.Excuses A) {runner : Runner σ} {stack : CallStack}
    {stem : String} {step : Step}
    (hdeed : ∀ {d scope task}, stage.task d scope step = .ok task →
      Work.Maintains J Whatever (A step)
        (Perform.deed stage runner place stack stem task.timeout task.deed)) :
    Maintains J (Answers Whatever (A step)) (attempt stage runner place stack stem step) := by
  refine .bind (R := Whatever) (.onFirst fun _ => .read fun _ _ _ => trivial) fun desk _ => ?_
  refine .bind (R := Whatever) (.onFirst fun _ => .read fun _ _ _ => trivial) fun scope _ => ?_
  refine .bind (maintains_said endures _) fun _ _ => ?_
  cases htask : stage.task desk scope step with
  | error e => exact .pure (excuses.task htask)
  | ok task =>
    refine .bind (maintains_warnings endures _) fun _ _ => ?_
    have hguarded := maintains_guarded (fun _ => (excuses.tolerates step).mild) (hdeed htask) task
    refine .bind hguarded.untilCancelled fun r hr => ?_
    cases r with
    | none => exact .pure ((excuses.tolerates step).mild rfl)
    | some r => exact .pure (hr r rfl)

theorem maintains_capture (shown : Shown J) (name : String) :
    Maintains J Whatever (capture stage name) := by
  refine .bind (maintains_called endures (.screenshot true)) fun r _ => ?_
  cases r with
  | error fault => exact maintains_said endures _
  | ok png =>
    refine .bind (Work.maintains_storeScreenshot endures stage.tolerates_true name png) fun r _ => ?_
    cases r with
    | ok stored => exact .modifySecond fun _ _ => shown stored
    | error e => exact maintains_said endures _

theorem maintains_captureAfter (shown : Shown J) (action : Action) (stem : String) (r : Except Failure Unit) :
    Maintains J Whatever (captureAfter stage action stem r) := by
  cases r with
  | ok u =>
    simp only [captureAfter]
    split
    · exact maintains_capture endures shown _
    · exact .pure trivial
  | error e =>
    simp only [captureAfter]
    split
    · exact .pure trivial
    · exact maintains_capture endures shown _

end

section

variable (lasting : stage.Lasting A I) (excuses : stage.Excuses A)

include lasting excuses

variable {runner : Runner σ} {place : Place} {stack : CallStack} {step : Step}

theorem maintains_step
    (hrunner : ∀ id, step.instruction.reference? = some id →
      Maintains I (Blames (A step)) (runner id stack place.depth)) :
    Maintains I (fun r => ∀ e, r.2 = some e → A step e)
      (Play.step stage runner place stack step) := by
  have stable := lasting.toStable
  refine .bind .now fun started _ => ?_
  refine .bind (R := Whatever) ?_ fun number _ => ?_
  · intro w c s hs
    exact ⟨.refl c, stable.begun _ hs, trivial⟩
  refine .bind (maintains_call stable.toUndisturbed _) fun _ _ => ?_
  refine .bind (.withOwn (Q := fun r => ∀ e, r.1 = some e → A step e) ?_) fun r hr => ?_
  · have endures := (stable.firm place).endures
    refine .bind (maintains_attempt endures excuses fun htask => ?_) fun r hr => ?_
    · exact Perform.maintains_deed stable (excuses.tolerates step)
        (fun id hid => hrunner id (Bench.reference?_of_task htask ▸ hid)) _ _
    refine .bind (maintains_captureAfter endures (fun _ _ _ h => h) _ _ r) fun _ _ => ?_
    refine .bind (.onFirst fun _ => maintains_call stable.toUndisturbed _) fun requests _ => ?_
    cases r with
    | ok u =>
      refine .pure ?_
      intro e he
      cases he
    | error e =>
      refine .bind (maintains_note endures _) fun _ _ => .pure ?_
      intro e' he
      cases he
      exact hr
  · exact .bind .now fun ended _ => .pure hr

/-- One step keeps the invariant, and is excused if it fails. -/
theorem maintains_turn
    (hrunner : ∀ id, step.instruction.reference? = some id →
      Maintains I (Blames (A step)) (runner id stack place.depth)) :
    Maintains I (fun r => ∀ e, r.2 = some e → A step e) (turn stage runner place stack step) := by
  have stable := lasting.toStable
  refine .bind (maintains_say stable.toUndisturbed _) fun _ _ => ?_
  refine .bind (maintains_tell stable _) fun _ _ => ?_
  refine .bind (maintains_step lasting excuses hrunner) fun r hr => ?_
  refine .bind (maintains_say stable.toUndisturbed _) fun _ _ => ?_
  refine .bind (maintains_tell stable _) fun _ _ => ?_
  refine .bind (.modify fun s hs => lasting.close hs hr) fun _ _ => ?_
  exact .pure hr

theorem maintains_stepsFrom {id : String} {depth : Nat} {steps : List Step}
    (hrunner : ∀ step ∈ steps, ∀ id, step.instruction.reference? = some id →
      Maintains I (Blames (A step)) (runner id stack depth)) (index : Nat) :
    Maintains I (fun r => ∀ e, r.fatal = some e → ∃ step ∈ steps, A step e ∧ e.isFatal = true)
      (stepsFrom stage runner id stack depth index steps) := by
  induction steps generalizing index with
  | nil =>
    refine .pure ?_
    intro e he
    cases he
  | cons step rest ih =>
    have hrest := ih (fun s hs => hrunner s (List.mem_cons_of_mem _ hs)) (index + 1)
    refine .bind .isCancelled fun cancelled _ => ?_
    cases cancelled with
    | true =>
      refine .pure ?_
      intro e he
      cases he
    | false =>
      refine .bind (maintains_turn lasting excuses (hrunner step (List.mem_cons_self ..)))
        fun r hr => ?_
      obtain ⟨outcome, failure⟩ := r
      have hafter : ∀ failed, Maintains I
          (fun r => ∀ e, r.fatal = some e → ∃ s ∈ step :: rest, A s e ∧ e.isFatal = true)
          (do
            let report ← stepsFrom stage runner id stack depth (index + 1) rest
            return report.after outcome failed) := by
        intro failed
        refine .bind hrest fun report hreport => .pure ?_
        intro e he
        obtain ⟨s, hs, hA⟩ := hreport e he
        exact ⟨s, List.mem_cons_of_mem _ hs, hA⟩
      cases failure with
      | none => exact hafter false
      | some e =>
        simp only
        split
        · rename_i hfatal
          refine .pure ?_
          rintro e' ⟨⟩
          exact ⟨step, List.mem_cons_self .., hr e rfl, hfatal⟩
        split
        · refine .pure ?_
          rintro e' ⟨⟩
        split
        · exact hafter step.counts
        · refine .pure ?_
          rintro e' ⟨⟩

end

theorem maintains_enter {P : Failure → Prop} (stable : stage.Stable I) {runner : Runner σ}
    {id : String} {stack : CallStack} {depth : Nat}
    (hcircle : stack.contains id = true → P (.cyclicReference (stack.chainTo id)))
    (hload : ∀ s e, I s → (stage.scenarios.load s.desk id).1 = .error e → P e)
    (hmissing : P (.scenarioMissing id))
    (hplay : ∀ s t, I s → (stage.scenarios.load s.desk id).1 = .ok (some t) →
      Maintains I (fun r => ∀ e, r.fatal = some e → P e)
        (stepsFrom stage runner t.id (stack.push id) (depth + 1) 0 t.steps)) :
    Maintains I (Blames P) (enter stage runner id stack depth) := by
  unfold enter
  split
  · rename_i hon
    exact .bind (maintains_say stable.toUndisturbed _) fun _ _ => .pure (hcircle hon)
  · refine .bind (R := fun desk => ∃ s, I s ∧ s.desk = desk) (.read fun _ s hs => ⟨s, hs, rfl⟩) ?_
    rintro desk ⟨s, hs, rfl⟩
    have hload := hload s
    have hplay := hplay s
    generalize stage.scenarios.load s.desk id = found at hload hplay
    obtain ⟨answer, lines⟩ := found
    refine .bind (maintains_say stable.toUndisturbed lines) fun _ _ => ?_
    rcases answer with e | _ | t
    · exact .pure (hload e hs rfl)
    · exact .pure hmissing
    · refine .bind (maintains_say stable.toUndisturbed _) fun _ _ => ?_
      refine .bind (hplay t hs rfl) fun report hreport => ?_
      exact .bind (maintains_say stable.toUndisturbed _) fun _ _ => .pure hreport

end Play

end Rehearsal
