import Rehearsal.Proofs.Indifference
import Rehearsal.Proofs.Inversion

/-! # A step and its detour

However the work of a step ends, the step has done all of it by itself but one thing: once at most it has
had a scenario played, whose outcomes it keeps if the scenario came to its end. Where time has passed and
how the world has changed is told by a relation that every act of the step respects.
-/
namespace Rehearsal

open Timed (Maintains Whatever)

variable {σ α β : Type}

/-- Time has passed, and the state has changed by this relation. -/
structure Onward {S : Type} (G : S → S → Prop) (x y : Clock × S) : Prop where
  before : x.1.Before y.1
  goes : G x.2 y.2

namespace Timed

variable {S : Type}

/-- However work ends, it has led by this relation to where it ends. -/
def Leads (R : Clock × S → Clock × S → Prop) (x : Timed S α) : Prop := ∀ w c s, R (c, s) (x w c s).2

namespace Leads

variable {R T U : Clock × S → Clock × S → Prop} {x : Timed S α}

theorem of_maintains {G : S → S → Prop} {Q : α → Prop} (refl : ∀ s, G s s)
    (hx : ∀ s, Maintains (G s) Q x) : Leads (Onward G) x := by
  intro w c s
  generalize h : x w c s = r
  obtain ⟨e, c', s'⟩ := r
  exact ⟨(hx s).before (refl s) h, (hx s).holds (refl s) h⟩

theorem mono (hx : Leads R x) (h : ∀ y z, R y z → T y z) : Leads T x :=
  fun w c s => h _ _ (hx w c s)

theorem pure {a : α} (refl : ∀ y, R y y) : Leads R (pure a : Timed S α) := fun _ _ _ => refl _

/-- Work that was given up in its first part has led no further. -/
theorem bind {f : α → Timed S β} (hx : Leads R x) (hf : ∀ a, Leads T (f a))
    (first : ∀ y z, R y z → U y z) (both : ∀ y z u, R y z → T z u → U y u) :
    Leads U (x >>= f) := by
  intro w c s
  have hend := hx w c s
  rw [bind_apply]
  generalize x w c s = r at hend ⊢
  rcases r with ⟨a | _ | _, c', s'⟩
  · exact both _ _ _ hend (hf a w c' s')
  · exact first _ _ hend
  · exact first _ _ hend

/-- Work that only answers in the end has led no further. -/
theorem andStays {f : α → Timed S β} (hx : Leads R x) (hf : ∀ a, Leads Eq (f a)) : Leads R (x >>= f) := by
  refine hx.bind hf (fun _ _ h => h) fun y z u h same => ?_
  rwa [← same]

/-- What follows from where work has led is known at its end, however it ends. -/
theorem brings {w : Watch} {I J : S → Prop} (hx : Leads R x)
    (h : ∀ {y z : Clock × S}, I y.2 → R y z → J z.2) : Brings w I (fun _ => J) J x := by
  intro c s hs
  have hend := h hs (hx w c s)
  generalize x w c s = r at hend ⊢
  rcases r with ⟨a | _ | _, c', s'⟩
  · exact hend
  · exact hend
  · exact hend

theorem within {millis : Nat} (hx : Leads R x) : Leads R (within millis x) := by
  intro w c s
  unfold Timed.within
  simp only
  have hend := hx { w with deadline := some (earlier w.deadline (c.now + millis)) } c s
  generalize x { w with deadline := some (earlier w.deadline (c.now + millis)) } c s = r at hend ⊢
  rcases r with ⟨a | _ | _, c', s'⟩
  · exact hend
  · exact hend
  · simp only
    split
    · exact hend
    · exact hend

theorem untilCancelled (refl : ∀ y, R y y) (hx : Leads R x) : Leads R (untilCancelled x) := by
  intro w c s
  unfold Timed.untilCancelled
  split
  · exact refl _
  have hend := hx { w with cancellable := true } c s
  generalize x { w with cancellable := true } c s = r at hend ⊢
  rcases r with ⟨a | _ | _, c', s'⟩
  · exact hend
  · simp only
    split
    · exact hend
    · exact hend
  · exact hend

end Leads

end Timed

/-- Work that failed in its first part has led no further. -/
theorem Work.leads_bind {R T U : Clock × World σ × Trace → Clock × World σ × Trace → Prop}
    {work : Work σ α} {f : α → Work σ β} (hwork : Timed.Leads R work.run)
    (hf : ∀ a, Timed.Leads T (f a).run) (first : ∀ y z, R y z → U y z)
    (both : ∀ y z u, R y z → T z u → U y u) : Timed.Leads U (work >>= f).run := by
  refine Timed.Leads.bind (T := fun y z => y = z ∨ T y z) hwork (fun r => ?_) first ?_
  · cases r with
    | ok a => exact (hf a).mono fun _ _ => .inr
    | error e => exact .pure fun _ => .inl rfl
  · rintro y z u hyz (rfl | hzu)
    · exact first y z hyz
    · exact both y z u hyz hzu

/-- A relation that everything respects which a step does by itself, besides keeping a picture. -/
structure Stage.Respects (stage : Stage σ) (place : Place)
    (G : World σ × Trace → World σ × Trace → Prop) : Prop where
  refl : ∀ x, G x x
  trans : ∀ {x y z}, G x y → G y z → G x z
  acts : ∀ {x y}, stage.Acts place x y → G x y
  sets : ∀ s t scope, G (s, t) ({ s with scope }, t)

namespace Stage.Respects

variable {stage : Stage σ} {place : Place} {G : World σ × Trace → World σ × Trace → Prop}
  (respects : stage.Respects place G)

include respects

theorem endures (x : World σ × Trace) : stage.Endures place (G x) :=
  fun _ _ act goes => respects.trans goes (respects.acts act)

theorem onward_refl (x : Clock × World σ × Trace) : Onward G x x := ⟨.refl _, respects.refl _⟩

theorem onward_trans {x y z : Clock × World σ × Trace} (h : Onward G x y) (h' : Onward G y z) :
    Onward G x z :=
  ⟨h.before.trans h'.before, respects.trans h.goes h'.goes⟩

/-- Where work leads of which it is known what it maintains. -/
theorem leads {Q : α → Prop} {x : Timed (World σ × Trace) α} (hx : ∀ y, Maintains (G y) Q x) :
    Timed.Leads (Onward G) x := .of_maintains respects.refl hx

end Stage.Respects

namespace Play

/-- What a scenario that was to be played has left for the step that had it played. -/
def outcomesOf : Exit (Except Failure Report) → List Outcome
  | .done (.ok report) => report.outcomes
  | _ => []

section

variable (G : World σ × Trace → World σ × Trace → Prop) (runner : Runner σ) (place : Place)
  (stack : CallStack)

/-- From `x` a step has come to `y` by itself, or with one scenario played on the way. -/
inductive Detour (x y : Clock × World σ × Trace) : Prop
  | own (onward : Onward G x y)
  | plays {id : String} {w : Watch} {e : Exit (Except Failure Report)}
    {a b : Clock × World σ × Trace} (before : Onward G x a)
    (ran : runner id stack place.depth w a.1 a.2.1 = (e, b.1, b.2.1))
    (kept : b.2.2 = { a.2.2 with children := a.2.2.children ++ outcomesOf e })
    (after : Onward G b y)

end

section

variable {stage : Stage σ} {G : World σ × Trace → World σ × Trace → Prop} {runner : Runner σ}
  {place : Place} {stack : CallStack} (respects : stage.Respects place G)

include respects

theorem Detour.refl (x : Clock × World σ × Trace) : Detour G runner place stack x x :=
  .own (respects.onward_refl x)

theorem Detour.since {x y z : Clock × World σ × Trace} (h : Onward G x y)
    (h' : Detour G runner place stack y z) : Detour G runner place stack x z := by
  cases h' with
  | own onward => exact .own (respects.onward_trans h onward)
  | plays before ran kept after => exact .plays (respects.onward_trans h before) ran kept after

theorem Detour.further {x y z : Clock × World σ × Trace} (h : Detour G runner place stack x y)
    (h' : Onward G y z) : Detour G runner place stack x z := by
  cases h with
  | own onward => exact .own (respects.onward_trans onward h')
  | plays before ran kept after => exact .plays before ran kept (respects.onward_trans after h')

theorem leads_own {work : Work σ α} (own : ∀ x, Work.Maintains (G x) Whatever (fun _ => True) work) :
    Timed.Leads (Detour G runner place stack) work.run :=
  (respects.leads own).mono fun _ _ => .own

/-- First something that the step does by itself. -/
theorem leads_after {work : Work σ α} {f : α → Work σ β}
    (own : ∀ x, Work.Maintains (G x) Whatever (fun _ => True) work)
    (hf : ∀ a, Timed.Leads (Detour G runner place stack) (f a).run) :
    Timed.Leads (Detour G runner place stack) (work >>= f).run :=
  Work.leads_bind (respects.leads own) hf (fun _ _ => .own) fun _ _ _ => .since respects

/-- Something in the end that the step does by itself. -/
theorem leads_before {work : Work σ α} {f : α → Work σ β}
    (hwork : Timed.Leads (Detour G runner place stack) work.run)
    (own : ∀ a x, Work.Maintains (G x) Whatever (fun _ => True) (f a)) :
    Timed.Leads (Detour G runner place stack) (work >>= f).run :=
  Work.leads_bind hwork (fun a => respects.leads (own a)) (fun _ _ h => h) fun _ _ _ h => h.further respects

theorem leads_perform (id : String) :
    Timed.Leads (Detour G runner place stack) (Login.perform runner place stack id).run := by
  rintro w c ⟨s, t⟩
  have stays := respects.onward_refl
  show Detour G runner place stack (c, s, t) ((Timed.onFirst (runner id stack place.depth) >>= _) w c (s, t)).2
  rw [Timed.bind_apply]
  unfold Timed.onFirst
  generalize hran : runner id stack place.depth w c s = r
  have empty : t = { t with children := t.children ++ [] } := by rw [List.append_nil]
  rcases r with ⟨(e | report) | _ | _, c', s'⟩
  · exact .plays (b := (c', s', t)) (stays (c, s, t)) hran empty (stays _)
  · show Detour G runner place stack (c, s, t) ((Work.settle report id : Work σ Unit).run w c' (s', t)).2
    rw [settle_apply]
    exact .plays (b := (c', s', _)) (stays (c, s, t)) hran rfl (stays _)
  · exact .plays (b := (c', s', t)) (stays (c, s, t)) hran empty (stays _)
  · exact .plays (b := (c', s', t)) (stays (c, s, t)) hran empty (stays _)

theorem leads_ensure (login : LoginTask) (timeout : Nat) :
    Timed.Leads (Detour G runner place stack) (Login.ensure stage runner place stack login timeout).run := by
  have endures := respects.endures
  have noted := fun line x => Work.maintains_note (P := fun _ => True) (endures x) line
  have selected := fun selector x => Work.maintains_setSelector (P := fun _ => True) (endures x) selector
  refine leads_after respects (noted _) fun _ => ?_
  refine leads_after respects (fun x => Login.maintains_load (endures x) stage.tolerates_true _)
    fun restored => ?_
  refine leads_after respects (fun x => Login.maintains_visit (endures x) stage.tolerates_true _ _) fun _ => ?_
  refine leads_after respects (fun x => Login.maintains_check (endures x) stage.tolerates_true _ _)
    fun loggedIn => ?_
  cases loggedIn with
  | true =>
    refine leads_after respects (noted _) fun _ => ?_
    exact leads_own respects (selected _)
  | false =>
    refine leads_after respects (noted _) fun _ => ?_
    refine leads_after respects (fun x => Work.maintains_say (endures x) _) fun _ => ?_
    refine leads_before respects ?_ fun r x => ?_
    · exact (leads_perform respects login.loginScenario).andStays fun r => .pure fun _ => rfl
    rcases r with e | u
    · simp only
      split
      · exact .throw trivial
      · refine .bind (noted _ x) fun _ _ => ?_
        exact .bind (Work.maintains_say (endures x) _) fun _ _ => .throw trivial
    · refine .bind (Login.maintains_save (endures x) stage.tolerates_true _) fun _ _ => ?_
      refine .bind (Login.maintains_visit (endures x) stage.tolerates_true _ _) fun _ _ => ?_
      exact .bind (noted _ x) fun _ _ => selected _ x

theorem leads_deed {deed : Deed} (shown : deed = .screenshot → ∀ x, Shown (G x)) (stem : String)
    (timeout : Nat) :
    Timed.Leads (Detour G runner place stack)
      (Perform.deed stage runner place stack stem timeout deed).run := by
  have endures := respects.endures
  cases deed with
  | extract candidates saveAs =>
    refine leads_own respects fun x => ?_
    exact Perform.maintains_extract (endures x) stage.tolerates_true
      (fun _ _ scope goes => respects.trans goes (respects.sets _ _ scope)) candidates saveAs timeout
  | runScenario id =>
    refine leads_after respects (fun x => Work.maintains_say (endures x) _) fun _ => ?_
    refine leads_after respects (fun x => Work.maintains_setSelector (endures x) id) fun _ => ?_
    exact leads_perform respects id
  | ensureLogin login => exact leads_ensure respects login timeout
  | _ =>
    refine leads_own respects fun x => ?_
    exact Perform.maintains_own (endures x) stage.tolerates_true (fun h => shown h x) rfl
      (fun _ _ h => by cases h) runner stack stem timeout

omit respects in
theorem leads_guarded {R : Clock × World σ × Trace → Clock × World σ × Trace → Prop}
    {work : Timed (World σ × Trace) (Except Failure Unit)} (task : Task) (hwork : Timed.Leads R work) :
    Timed.Leads R (guarded task work) := by
  unfold guarded
  split
  · exact hwork
  · refine hwork.within.andStays fun r => ?_
    cases r with
    | none => exact .pure fun _ => rfl
    | some r => exact .pure fun _ => rfl

end

section

variable {stage : Stage σ} {G : World σ × Trace → World σ × Trace → Prop} {runner : Runner σ}
  {place : Place} {stack : CallStack} {step : Step}

/-- Besides its deed there are only lines in an attempt, which go no further than the deed goes. Where
pictures are put is of no concern to them. -/
theorem leads_attempt_of {R : Clock × World σ × Trace → Clock × World σ × Trace → Prop}
    (sink : ArtifactSink) (respects : Stage.Respects { stage with sink } place G) {stem : String}
    (own : ∀ {x y}, Onward G x y → R x y) (since : ∀ {x y z}, Onward G x y → R y z → R x z)
    (deeds : ∀ {d scope task}, stage.task d scope step = .ok task →
      Timed.Leads R (Perform.deed stage runner place stack stem task.timeout task.deed).run) :
    Timed.Leads R (attempt stage runner place stack stem step) := by
  rintro w c ⟨s, t⟩
  unfold attempt
  rw [Timed.bind_of_done (Timed.onFirst_of_done (Timed.desk_apply ..) t),
    Timed.bind_of_done (Timed.onFirst_of_done (Timed.scope_apply ..) t),
    Timed.bind_of_done (Timed.onFirst_of_done (Timed.say_apply ..) t)]
  have said : Onward G (c, s, t) (c, s.say (stage.referenceLines s.scope step.instruction), t) :=
    ⟨.refl c, respects.acts (.say _)⟩
  cases made : stage.task s.desk s.scope step with
  | error e => exact own said
  | ok task =>
    refine since said ?_
    have warned := respects.leads fun x => maintains_warnings (respects.endures x) task.unset
    refine warned.bind (fun _ => ?_) (fun _ _ => own) (fun _ _ _ => since) w c _
    have watched := (leads_guarded task (deeds made)).untilCancelled fun x => own (respects.onward_refl x)
    refine watched.andStays fun r => ?_
    cases r with
    | none => exact .pure fun _ => rfl
    | some r => exact .pure fun _ => rfl

/-- An attempt at a step is made by the step itself, up to one scenario that it has played. -/
theorem leads_attempt (respects : stage.Respects place G)
    (shown : step.instruction = .screenshot → ∀ x, Shown (G x)) (stem : String) :
    Timed.Leads (Detour G runner place stack) (attempt stage runner place stack stem step) :=
  leads_attempt_of stage.sink respects .own (.since respects) fun made =>
    leads_deed respects (fun hdeed => shown (Bench.instruction_of_screenshot made hdeed)) stem _

end

/-- What is done by entering scenarios whose steps have a runner that does it, is done by all runners of
the stage. -/
theorem IsRunner.does {stage : Stage σ} {runner : Runner σ} {R : Conduct σ}
    (halts : ∀ {id stack depth w x e}, R id stack depth w x (.done (.error e)) x)
    (enters : ∀ {runner}, IsRunner stage runner → Does R runner → ∀ {id stack depth w x e y},
      Entered stage runner id stack depth w x e y → R id stack depth w x e y)
    (isRunner : IsRunner stage runner) : Does R runner := by
  cases isRunner with
  | whole => exact runner_does halts enters
  | nested fuel => exact nested_does halts enters fuel

end Play

end Rehearsal
