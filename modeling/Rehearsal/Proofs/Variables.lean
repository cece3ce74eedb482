import Rehearsal.Proofs.RunCourse

/-! # The variables of a run

All the scenarios of a run share one scope. What is in it was put there by the steps that have
extracted a text and have not failed, in the order of their ends, whatever became of the scenarios they
were in. Only a step that is given up between the reading of its text and its end leaves a variable
without having ended, and nothing is set after that.
-/
namespace Rehearsal

/-- What a turn does to the variables, where `text` was read in it. -/
def Turn.sets (t : Turn) (text : String) (v : Scope) : Scope :=
  match t.step.instruction, t.failure with
  | .extract _ saveAs, none => v.set saveAs text
  | _, _ => v

/-- Turns in the order of their ends, with the texts that were read in them. -/
abbrev History := List (Turn × String)

/-- The variables that are set by the turns, one after another. -/
def Scope.after (h : History) : Scope := h.foldl (fun v r => r.1.sets r.2 v) .empty

@[simp] theorem Scope.after_snoc (h : History) (t : Turn) (text : String) :
    Scope.after (h ++ [(t, text)]) = t.sets text (.after h) := by
  rw [Scope.after, List.foldl_append]
  rfl

namespace Turn

variable {t : Turn} (text : String) (v : Scope)

theorem sets_of_failed {e : Failure} (h : t.failure = some e) : t.sets text v = v := by
  unfold sets
  rw [h]
  split
  · rename_i failure
    cases failure
  · rfl

theorem sets_of_unread (h : ∀ target saveAs, t.step.instruction ≠ .extract target saveAs) :
    t.sets text v = v := by
  unfold sets
  split
  · rename_i instruction _
    exact absurd instruction (h _ _)
  · rfl

theorem sets_of_extract {target saveAs : String} (h : t.step.instruction = .extract target saveAs)
    (failure : t.failure = none) : t.sets text v = v.set saveAs text := by
  unfold sets
  rw [h, failure]

end Turn

/-- A step that has begun and was given up on its way. -/
structure Dropped where
  place : Place
  stack : CallStack
  step : Step

variable {σ : Type}

/-- Since `base` exactly this was played, and the variables are those that it has set. -/
structure World.Keeps (s : World σ) (base : List Turn) (h : History) : Prop where
  turns : s.turns = base ++ h.map (·.1)
  scope : s.scope = .after h

namespace Stage

variable (stage : Stage σ) (base : List Turn)

/-- The text is that of an element to which the target leads when it is filled in with the variables
of `h`. The element was looked for when exactly `h` had been played. -/
def Reads (h : History) (step : Step) (target text : String) : Prop :=
  ∃ w c s c' s' located, s.Keeps base h ∧
    locate stage.browser (stage.selectors.resolve ((Scope.after h).fill target)) (.perform .readText)
      (step.options.timeout.getD stage.settings.defaultTimeout) w c s =
        (.done (.ok located), c', s') ∧
    text = Text.trim (located.output.getD "")

/-- The step was attempted when exactly `before` had been played, with the variables of this. `inside`
was played in the attempt, and the turn failed as the attempt did. -/
def Attempts (before inside : History) (t : Turn) : Prop :=
  ∃ runner stem w c s r c' y, s.Keeps base before ∧
    Play.attempt stage runner t.place t.stack stem t.step w c (s, .empty) = (.done r, c', y) ∧
    y.1.turns = base ++ (before ++ inside).map (·.1) ∧ t.failure = failureOf r

/-- What was played came about turn by turn: each step was attempted with exactly the variables that
were set before it, and so was each text read. What was played inside a step comes between. -/
inductive Flow : History → Prop
  | nothing : Flow []
  | turn {before inside : History} {t : Turn} {text : String} (earlier : Flow (before ++ inside))
    (attempts : stage.Attempts base before inside t)
    (reads : ∀ target saveAs, t.step.instruction = .extract target saveAs → t.failure = none →
      stage.Reads base (before ++ inside) t.step target text ∧
        saveAs ++ " = " ++ Text.truncate text 80 ∈ t.outcome.logs) :
    Flow (before ++ inside ++ [(t, text)])

/-- The step began when exactly `before` had been played, with the variables of this, and was given up
when `inside` had been played too. -/
def Drops (before inside : History) (d : Dropped) : Prop :=
  ∃ runner w c s e c' s', s.Keeps base before ∧
    Play.turn stage runner d.place d.stack d.step w c s = (e, c', s') ∧ (∀ a, e ≠ .done a) ∧
    s'.turns = base ++ (before ++ inside).map (·.1)

/-- The last of the steps that were given up had set its variable already, as the last of all. -/
def Ahead (h : History) (dropped : List Dropped) (v : Scope) : Prop :=
  ∃ d target saveAs text before, dropped.getLast? = some d ∧
    d.step.instruction = .extract target saveAs ∧ before <+: h ∧
    stage.Reads base before d.step target text ∧ v = (Scope.after h).set saveAs text

/-- How the world has come about since `base`: what was played, which steps were given up on their way,
and that the variables are those of the turns, but for one that was set ahead of the end of its step. -/
structure Follows (h : History) (dropped : List Dropped) (s : World σ) : Prop where
  turns : s.turns = base ++ h.map (·.1)
  flow : stage.Flow base h
  drops : ∀ d ∈ dropped, ∃ before inside, before ++ inside <+: h ∧ stage.Drops base before inside d
  scope : s.scope = .after h ∨ stage.Ahead base h dropped s.scope

/-- From a world after `h` one has come to another, where more was played. Of the steps that have begun
each has ended or was given up. -/
structure Leads (h : History) (s : World σ) (inner : History) (dropped : List Dropped) (s' : World σ) :
    Prop where
  follows : stage.Follows base (h ++ inner) dropped s'
  begun : s'.begun = s.begun + inner.length + dropped.length

variable {stage base} {h inner inner' : History} {dropped : List Dropped} {s s' s'' : World σ}

theorem Follows.keeps (follows : stage.Follows base h [] s) : s.Keeps base h := by
  refine ⟨follows.turns, ?_⟩
  rcases follows.scope with scope | ⟨d, _, _, _, _, hd, -⟩
  · exact scope
  · cases hd

theorem Follows.same (follows : stage.Follows base h dropped s) (turns : s'.turns = s.turns)
    (scope : s'.scope = s.scope) : stage.Follows base h dropped s' :=
  ⟨turns.trans follows.turns, follows.flow, follows.drops, scope ▸ follows.scope⟩

theorem Leads.refl (follows : stage.Follows base h [] s) (turns : s'.turns = s.turns)
    (scope : s'.scope = s.scope) (begun : s'.begun = s.begun) : stage.Leads base h s [] [] s' :=
  ⟨(List.append_nil h).symm ▸ follows.same turns scope, begun⟩

theorem Leads.same {t t' : World σ} (leads : stage.Leads base h s inner dropped s')
    (begun : s.begun = t.begun) (turns : t'.turns = s'.turns) (scope : t'.scope = s'.scope)
    (begun' : t'.begun = s'.begun) : stage.Leads base h t inner dropped t' :=
  ⟨leads.follows.same turns scope, begun'.trans (begun ▸ leads.begun)⟩

theorem Leads.trans (leads : stage.Leads base h s inner [] s')
    (leads' : stage.Leads base (h ++ inner) s' inner' dropped s'') :
    stage.Leads base h s (inner ++ inner') dropped s'' := by
  refine ⟨List.append_assoc h inner inner' ▸ leads'.follows, ?_⟩
  rw [leads'.begun, leads.begun, List.length_append, List.length_nil]
  omega

/-- The turn of a step that sets nothing itself is over. -/
theorem Leads.close {t : Turn} {text : String} {x : World σ}
    (leads : stage.Leads base h x inner dropped s') (begun : x.begun = s.begun + 1)
    (flow : stage.Flow base (h ++ inner ++ [(t, text)])) (unset : ∀ v, t.sets text v = v) :
    stage.Leads base h s (inner ++ [(t, text)]) dropped (stage.closes t s') := by
  have later : ∀ {before}, before <+: h ++ inner → before <+: h ++ (inner ++ [(t, text)]) := by
    intro before earlier
    rw [← List.append_assoc]
    exact earlier.trans (List.prefix_append ..)
  have after : Scope.after (h ++ (inner ++ [(t, text)])) = .after (h ++ inner) := by
    rw [← List.append_assoc, Scope.after_snoc, unset]
  refine ⟨⟨?_, ?_, fun d hd => ?_, ?_⟩, ?_⟩
  · rw [stage.turns_closes, leads.follows.turns]
    simp
  · rwa [← List.append_assoc]
  · obtain ⟨before, inside, earlier, drops⟩ := leads.follows.drops d hd
    exact ⟨before, inside, later earlier, drops⟩
  · rw [stage.scope_closes, after]
    refine leads.follows.scope.imp_right fun ahead => ?_
    obtain ⟨d, target, saveAs, read, before, hd, instruction, earlier, reads, hv⟩ := ahead
    exact ⟨d, target, saveAs, read, before, hd, instruction, later earlier, reads, after ▸ hv⟩
  · rw [stage.begun_closes, leads.begun, begun, List.length_append, List.length_singleton]
    omega

/-- The turn of a step that has extracted a text is over. -/
theorem Leads.extract {t : Turn} {target saveAs text : String} {x : World σ}
    (follows : stage.Follows base h [] x) (begun : x.begun = s.begun + 1)
    (turns : s'.turns = x.turns) (count : s'.begun = x.begun)
    (scope : s'.scope = x.scope.set saveAs text)
    (instruction : t.step.instruction = .extract target saveAs) (failure : t.failure = none)
    (flow : stage.Flow base (h ++ [(t, text)])) :
    stage.Leads base h s [(t, text)] [] (stage.closes t s') := by
  refine ⟨⟨?_, flow, by simp, .inl ?_⟩, ?_⟩
  · rw [stage.turns_closes, turns, follows.turns]
    simp
  · rw [stage.scope_closes, scope, follows.keeps.scope, Scope.after_snoc,
      t.sets_of_extract text _ instruction failure]
  · rw [stage.begun_closes, count, begun]
    rfl

end Stage

namespace Play

open Stage (Follows Leads)

variable {stage : Stage σ} {runner : Runner σ} {place : Place} {stack : CallStack} {step : Step}
  {w : Watch} {base : List Turn} {h : History}

/-- What runners do with the turns and the variables. When they are done, no step is left on its way. -/
def Continues (stage : Stage σ) (base : List Turn) (e : Exit (Except Failure Report))
    (s s' : World σ) : Prop :=
  ∀ h, stage.Follows base h [] s → ∃ inner dropped, stage.Leads base h s inner dropped s' ∧
    ∀ a, e = .done a → dropped = []

section

variable
  (does : Does (fun _ _ _ w x e y => w.cancellable = true → Continues stage base e x.2 y.2) runner)

include does

/-- A step sets a variable itself, with its success, or the steps inside it may have. -/
theorem Course.leads {r : Option (Except Failure Unit)} {x : World σ} {y : World σ × Trace}
    (course : Course stage runner place stack step (x, .empty) r y)
    (follows : stage.Follows base h [] x) :
    (∃ inner dropped, stage.Leads base h x inner dropped y.1 ∧ (dropped ≠ [] → r = none) ∧
      (r = some (.ok ()) → ∀ target saveAs, step.instruction ≠ .extract target saveAs)) ∨
    ∃ target saveAs text, step.instruction = .extract target saveAs ∧ r = some (.ok ()) ∧
      stage.Reads base h step target text ∧ saveAs ++ " = " ++ Text.truncate text 80 ∈ y.2.logs ∧
      y.1.turns = x.turns ∧ y.1.begun = x.begun ∧ y.1.scope = x.scope.set saveAs text := by
  obtain ⟨a, b, _, _, first, happens, last⟩ := course.moved
  cases happens with
  | nothing unread =>
    exact .inl ⟨[], [], .refl follows (last.turns.trans first.turns) (last.scope.trans first.scope)
      (last.begun.trans first.begun), by simp, unread⟩
  | @reads target saveAs located s t instruction found noted succeeded =>
    obtain ⟨w, c, c', s₀, s₁, t₁, hscope, hturns, found, -⟩ := found
    refine .inr ⟨target, saveAs, _, instruction, succeeded,
      ⟨w, c, s₀, c', s₁, located, ⟨?_, ?_⟩, ?_, rfl⟩, ?_, last.turns.trans first.turns,
      last.begun.trans first.begun, ?_⟩
    · rw [hturns, first.turns, follows.turns]
    · rw [hscope, first.scope, follows.keeps.scope]
    · rw [← follows.keeps.scope, ← first.scope]
      exact found
    · rw [last.logs]
      exact List.mem_append_left _ noted
    · rw [last.scope, ← first.scope]
  | plays reference plays bears =>
    -- A step that has a scenario played reads no text itself.
    have unread : ∀ target saveAs, step.instruction ≠ .extract target saveAs := by
      intro target saveAs instruction
      rw [instruction] at reference
      cases reference
    have follows := follows.same first.turns first.scope
    cases plays with
    | refused watched answer =>
      obtain ⟨inner, dropped, leads, whole⟩ := does answer watched h follows
      exact .inl ⟨inner, dropped, leads.same first.begun last.turns last.scope last.begun,
        fun hdropped => absurd (whole _ rfl) hdropped, fun _ => unread⟩
    | settled watched answer =>
      obtain ⟨inner, dropped, leads, whole⟩ := does answer watched h follows
      exact .inl ⟨inner, dropped, leads.same first.begun last.turns last.scope last.begun,
        fun hdropped => absurd (whole _ rfl) hdropped, fun _ => unread⟩
    | givenUp watched drop left =>
      obtain ⟨inner, dropped, leads, -⟩ := does drop watched h follows
      exact .inl ⟨inner, dropped, leads.same first.begun last.turns last.scope last.begun,
        fun _ => bears, fun _ => unread⟩

omit does in
/-- The attempt at a step is made with the variables with which its turn began. -/
theorem Attempted.attempts {t : Turn} {s s' : World σ} {trace : Trace} {r : Except Failure Unit}
    {inner : History}
    (attempted : Attempted stage runner t.place t.stack t.step (stage.opens t.place t.step s, .empty) w r
      (s', trace)) (keeps : s.Keeps base h) (turns : s'.turns = base ++ (h ++ inner).map (·.1))
    (failure : t.failure = failureOf r) : stage.Attempts base h inner t := by
  obtain ⟨stem, c, c', s₁, y, before, attempt, after⟩ := attempted
  obtain ⟨_, before⟩ := before.moved
  obtain ⟨_, after⟩ := after.moved
  refine ⟨runner, stem, w, c, s₁, r, c', y, ⟨?_, ?_⟩, attempt, after.turns.symm.trans turns, failure⟩
  · exact before.turns.trans ((stage.turns_opens ..).trans keeps.turns)
  · exact before.scope.trans ((stage.scope_opens ..).trans keeps.scope)

/-- With the end of a turn its variable is set. Steps inside it are left on their way only if it was
cancelled and nobody further out was. -/
theorem Ends.leads {s s' : World σ} {t : Turn} (ends : Ends stage runner w s t s')
    (follows : stage.Follows base h [] s) :
    ∃ inner text dropped, stage.Leads base h s (inner ++ [(t, text)]) dropped s' ∧
      (dropped ≠ [] → t.failure = some .cancelled ∧ w.cancellable = false) := by
  obtain @⟨r, trace, s', millis, requests, attempted, failure, outcome⟩ := ends
  have opened : stage.Follows base h [] (stage.opens t.place t.step s) :=
    follows.same (stage.turns_opens ..) (stage.scope_opens ..)
  have begun : (stage.opens t.place t.step s).begun = s.begun + 1 := stage.begun_opens ..
  -- A step that has not read its text sets nothing, whatever was set inside it.
  have unread : ∀ {inner dropped}, stage.Leads base h (stage.opens t.place t.step s) inner dropped s' →
      (t.failure = none → ∀ target saveAs, t.step.instruction ≠ .extract target saveAs) →
      stage.Leads base h s (inner ++ [(t, "")]) dropped (stage.closes t s') := by
    intro inner dropped leads unread
    refine leads.close begun (.turn leads.follows.flow
      (attempted.attempts follows.keeps leads.follows.turns failure) ?_) fun v => ?_
    · exact fun target saveAs instruction failed => absurd instruction (unread failed _ _)
    · cases hfailure : t.failure with
      | none => exact t.sets_of_unread "" v (unread hfailure)
      | some e => exact t.sets_of_failed "" v hfailure
  rcases attempted.tried with course | ⟨rfl, hw, course⟩
  · rcases course.leads does opened with ⟨inner, dropped, leads, whole, unread'⟩ |
      ⟨target, saveAs, text, instruction, hr, reads, noted, turns, count, scope⟩
    · refine ⟨inner, "", dropped, unread leads fun failed => unread' ?_, fun hdropped => ?_⟩
      · cases r with
        | ok u => rfl
        | error e =>
          rw [failure] at failed
          cases failed
      · cases whole hdropped
    · cases hr
      have attempts : stage.Attempts base h [] t := by
        refine attempted.attempts follows.keeps ?_ failure
        rw [turns, opened.turns, List.append_nil]
      have flow : stage.Flow base (h ++ [] ++ [(t, text)]) := by
        refine .turn (by simpa using follows.flow) attempts fun target' saveAs' instruction' _ => ?_
        rw [instruction] at instruction'
        cases instruction'
        rw [List.append_nil, outcome]
        exact ⟨reads, noted⟩
      rw [List.append_nil] at flow
      exact ⟨[], text, [], .extract opened begun turns count scope instruction failure flow, by simp⟩
  · rcases course.leads does opened with ⟨inner, dropped, leads, -, -⟩ | ⟨_, _, _, _, hr, -⟩
    · refine ⟨inner, "", dropped, unread leads fun failed => ?_, fun _ => ⟨failure, hw⟩⟩
      rw [failure] at failed
      cases failed
    · cases hr

/-- A turn that was given up is one more that is left on its way. -/
theorem Breaks.leads {s s' : World σ} (breaks : Breaks stage runner place stack step w s s')
    (follows : stage.Follows base h [] s) :
    ∃ inner dropped, stage.Leads base h s inner (⟨place, stack, step⟩ :: dropped) s' := by
  have opened : stage.Follows base h [] (stage.opens place step s) :=
    follows.same (stage.turns_opens ..) (stage.scope_opens ..)
  have begun : (stage.opens place step s).begun = s.begun + 1 := stage.begun_opens ..
  have drops : ∀ {inner}, s'.turns = base ++ (h ++ inner).map (·.1) →
      ∃ before inside, before ++ inside <+: h ++ inner ∧
        stage.Drops base before inside ⟨place, stack, step⟩ := by
    intro inner turns
    obtain ⟨c, c', e, turn, left⟩ := breaks
    exact ⟨h, inner, List.prefix_rfl, runner, w, c, s, e, c', s', follows.keeps, turn, left, turns⟩
  obtain ⟨trace, r, course⟩ := breaks.course
  rcases course.leads does opened with ⟨inner, dropped, ⟨inside, count⟩, -⟩ |
    ⟨target, saveAs, text, instruction, -, reads, -, turns, count, scope⟩
  · refine ⟨inner, dropped, ⟨inside.turns, inside.flow,
      List.forall_mem_cons.mpr ⟨drops inside.turns, inside.drops⟩, ?_⟩, ?_⟩
    · refine inside.scope.imp_right fun ahead => ?_
      obtain ⟨d, target, saveAs, text, before, hd, h⟩ := ahead
      refine ⟨d, target, saveAs, text, before, ?_, h⟩
      rw [List.getLast?_cons, hd]
      rfl
    · rw [count, begun, List.length_cons]
      omega
  · have turns : s'.turns = base ++ (h ++ ([] : History)).map (·.1) := by
      rw [turns, opened.turns, List.append_nil]
    refine ⟨[], [], ⟨turns, ?_, ?_, .inr ?_⟩, ?_⟩
    · rw [List.append_nil]
      exact follows.flow
    · exact List.forall_mem_cons.mpr ⟨drops turns, by simp⟩
    · refine ⟨_, target, saveAs, text, h, rfl, instruction, List.prefix_append .., reads, ?_⟩
      rw [scope, opened.keeps.scope, List.append_nil]
    · rw [count, begun]
      rfl

section

variable {id : String} {depth : Nat}

/-- The turns of a row set their variables one after another. Only the last of them can have been
cancelled. -/
theorem Row.leads {index : Nat} {s s' : World σ} {played : List Turn}
    (row : Row stage runner id stack depth w index s played s') (follows : stage.Follows base h [] s)
    (own : ∀ t ∈ played.dropLast, t.failure ≠ some .cancelled) :
    ∃ inner dropped, stage.Leads base h s inner dropped s' ∧
      (dropped ≠ [] → w.cancellable = false ∧ ∃ t ∈ played, t.failure = some .cancelled ∧
        t.place.depth = depth ∧ t ∈ inner.map (·.1)) := by
  induction row generalizing h with
  | none => exact ⟨[], [], .refl follows rfl rfl rfl, by simp⟩
  | @next index c c' s s₁ s' step t played turned later ih =>
    obtain ⟨inner, text, dropped, leads, stopped⟩ := turned.ends.leads does follows
    cases played with
    | nil =>
      cases later
      refine ⟨_, dropped, leads, fun hdropped => ?_⟩
      obtain ⟨failure, hw⟩ := stopped hdropped
      exact ⟨hw, t, by simp, failure, by rw [turned.1], by simp⟩
    | cons u played =>
      -- With another turn after it this one was not cancelled, so nothing inside it is left on its way.
      have goesOn := own t (by simp)
      cases dropped with
      | cons d dropped => exact absurd (stopped (by simp)).1 goesOn
      | nil =>
        obtain ⟨inner', dropped', leads', stopped'⟩ :=
          ih leads.follows fun v hv => own v (by simp [hv])
        refine ⟨_, dropped', leads.trans leads', fun hdropped => ?_⟩
        obtain ⟨hw, v, hv, failure, hdepth, hmem⟩ := stopped' hdropped
        exact ⟨hw, v, List.mem_cons_of_mem _ hv, failure, hdepth, by
          rw [List.map_append]
          exact List.mem_append_right _ hmem⟩

theorem Played.leads {index : Nat} {steps : List Step} {x y : Clock × World σ} {turns : List Turn}
    {r : Report} (played : Played stage runner id stack depth w index steps x turns r y)
    (follows : stage.Follows base h [] x.2) :
    ∃ inner dropped, stage.Leads base h x.2 inner dropped y.2 ∧
      (dropped ≠ [] → w.cancellable = false ∧
        ∃ t ∈ inner.map (·.1), t.place.depth = depth ∧ t.failure = some .cancelled) := by
  obtain ⟨inner, dropped, leads, stopped⟩ := played.row.leads does follows fun t ht he =>
    played.goesOn t ht (Turn.halts_of_cancelled he)
  refine ⟨inner, dropped, leads, fun hdropped => ?_⟩
  obtain ⟨hw, t, -, failure, hdepth, hmem⟩ := stopped hdropped
  exact ⟨hw, t, hmem, hdepth, failure⟩

theorem Parted.leads {index : Nat} {steps : List Step} {s s' : World σ} {played : List Turn}
    (parted : Parted stage runner id stack depth w index steps s played s')
    (follows : stage.Follows base h [] s) :
    ∃ inner dropped, stage.Leads base h s inner dropped s' := by
  obtain ⟨goesOn, step, s₁, -, row, breaks⟩ := parted
  have own : ∀ t ∈ played, t.failure ≠ some .cancelled := fun t ht he =>
    goesOn t ht (Turn.halts_of_cancelled he)
  obtain ⟨inner, dropped, leads, stopped⟩ :=
    row.leads does follows fun t ht => own t (List.dropLast_subset _ ht)
  cases dropped with
  | cons d dropped =>
    obtain ⟨-, t, ht, failure, -⟩ := stopped (by simp)
    exact absurd failure (own t ht)
  | nil =>
    obtain ⟨inner', dropped', leads'⟩ := breaks.leads does leads.follows
    exact ⟨_, _, leads.trans leads'⟩

theorem Entered.continues {x y : Clock × World σ} {e : Exit (Except Failure Report)}
    (entered : Entered stage runner id stack depth w x e y) (watched : w.cancellable = true) :
    Continues stage base e x.2 y.2 := by
  intro h follows
  cases entered with
  | refused lines => exact ⟨[], [], .refl follows rfl rfl rfl, by simp⟩
  | played off loaded played =>
    obtain ⟨inner, dropped, leads, stopped⟩ := played.leads does (follows.same rfl rfl)
    refine ⟨inner, dropped, leads.same rfl rfl rfl rfl, fun _ _ => ?_⟩
    by_contra hdropped
    rw [watched] at stopped
    cases (stopped hdropped).1
  | parted off loaded left parted =>
    obtain ⟨inner, dropped, leads⟩ := parted.leads does (follows.same rfl rfl)
    exact ⟨inner, dropped, leads.same rfl rfl rfl rfl, fun a he => absurd he (left a)⟩

end

end

theorem runner_continues (stage : Stage σ) (base : List Turn) :
    Does (fun _ _ _ w x e y => w.cancellable = true → Continues stage base e x.2 y.2)
      (Play.runner stage) :=
  runner_does (fun _ _ follows => ⟨[], [], .refl follows rfl rfl rfl, by simp⟩)
    fun _ does _ _ _ _ _ _ _ entered => entered.continues does

end Play

namespace Run

/-- The variables of a run at any moment at which it is looked at: those that were set by the steps that
have ended, in the order of their ends. A step may have been given up with its variable set already;
then the run itself is looked at on its way, or a step of its scenario was cancelled around this one. In
a run whose references are refused nothing is set. -/
theorem variables_flow (stage : Stage σ) (scenario : Scenario) (runId : String) (w : Watch) (c : Clock)
    (s : World σ) :
    ∃ e c' s', run stage scenario runId w c s = (e, c', s') ∧
      ((Preflight.check stage.scenarios s.desk scenario).1 = .ok () → ∃ history dropped,
        stage.Follows s.turns history dropped s' ∧
        s'.begun = s.begun + history.length + dropped.length ∧
        (dropped ≠ [] → (∀ record, e ≠ .done record) ∨
          ∃ t ∈ history.map (·.1), t.place.depth = 0 ∧ t.failure = some .cancelled)) ∧
      (∀ f, (Preflight.check stage.scenarios s.desk scenario).1 = .error f →
        s'.turns = s.turns ∧ s'.begun = s.begun ∧ s'.scope = s.scope) := by
  generalize hrun : run stage scenario runId w c s = res
  obtain ⟨e, c', s'⟩ := res
  refine ⟨e, c', s', rfl, fun accepted => ?_, fun f refused => ?_⟩
  · obtain ⟨s₀, hturns, hbegun, hscope, hended⟩ := run_watched accepted hrun
    have follows : stage.Follows s.turns [] [] s₀ :=
      ⟨by rw [hturns, List.map_nil, List.append_nil], .nothing, by simp, .inl hscope⟩
    have does := Play.runner_continues stage s.turns
    rcases hended with ⟨played, report, c₁, s₁, hplayed, turns, scope, count⟩ | ⟨played, parted, left⟩
    · obtain ⟨history, dropped, leads, stopped⟩ := hplayed.leads does follows
      refine ⟨history, dropped, leads.follows.same turns scope, ?_, fun hdropped => ?_⟩
      · rw [count, leads.begun, hbegun]
      · exact .inr (stopped hdropped).2
    · obtain ⟨history, dropped, leads⟩ := parted.leads does follows
      refine ⟨history, dropped, leads.follows, ?_, fun _ => .inl left⟩
      rw [leads.begun, hbegun]
  · rw [run_of_error refused] at hrun
    obtain ⟨turns, scope, count⟩ := conclude_keeps hrun
    exact ⟨turns.trans (turns_opened ..), count.trans (begun_opened ..), scope.trans (scope_opened ..)⟩

end Run

/-- A browser in which every text is the same, and every picture takes its time. -/
def Browser.leisurely : Browser Unit :=
  { Browser.still with
    probe := fun _ => .done (.ok .visible)
    perform := fun _ _ => .done (.ok (some " 7 "))
    screenshot := fun _ => .pause 100 (.done (.ok [])) }

/-- A stage on which a picture is taken of every step. -/
def Stage.leisurely (scenarios : List Scenario) : Stage Unit :=
  { Stage.bare scenarios with
    settings := { Settings.default with captureEveryStep := true }
    browser := .leisurely }

namespace Run

open Preflight (nowhere referring)

/-- Reads a text, and then fails. -/
def reading : Scenario :=
  ⟨"a", none, none, none, [.ofInstruction (.extract "#a" "v"), .ofInstruction (.runScenario "gone")]⟩

theorem variables_flow_reading :
    ∃ e c s history,
      run (.leisurely [reading]) (referring "r" ["a"]) "1" .none .start (.ofPage () nowhere) =
        (e, c, s) ∧
      s.turns = history.map (·.1) ∧ history.map (·.1.failure.isSome) = [false, true, true] ∧
      s.scope = .after history ∧ s.scope.get? "v" = some "7" := by
  obtain ⟨e, c, s, hrun, accepted, -⟩ :=
    variables_flow (.leisurely [reading]) (referring "r" ["a"]) "1" .none .start (.ofPage () nowhere)
  obtain ⟨history, dropped, follows, begun, -⟩ := accepted (by decide +kernel)
  have hran : ((run (.leisurely [reading]) (referring "r" ["a"]) "1" .none .start
      (.ofPage () nowhere)).2.2.turns.map (·.failure.isSome),
      (run (.leisurely [reading]) (referring "r" ["a"]) "1" .none .start (.ofPage () nowhere)).2.2.begun,
      (run (.leisurely [reading]) (referring "r" ["a"]) "1" .none .start
        (.ofPage () nowhere)).2.2.scope.get? "v") = ([false, true, true], 3, some "7") := by
    decide +kernel
  rw [hrun] at hran
  simp only [Prod.mk.injEq] at hran
  obtain ⟨hfailures, hbegun, hscope⟩ := hran
  have hturns : s.turns = history.map (·.1) := follows.turns
  rw [hturns, List.map_map] at hfailures
  have hlength : history.length = 3 := by
    have := congrArg List.length hfailures
    simpa using this
  have hdropped : dropped = [] := by
    refine List.eq_nil_of_length_eq_zero ?_
    rw [hbegun, hlength] at begun
    simpa [World.ofPage] using begun
  subst hdropped
  exact ⟨e, c, s, history, hrun, hturns, hfailures, follows.keeps.scope, hscope⟩

/-- The variables of a run are not always those of the steps that have ended. Here a step inside another
is given up after it has read its text, while the picture of its success is taken. -/
theorem not_variables_of_turns :
    ¬ ∀ (stage : Stage Unit) (scenario : Scenario) (c : Clock) (record : RunRecord) (c' : Clock)
      (s' : World Unit), (run stage scenario "1").run c (.ofPage () nowhere) = (some record, c', s') →
      ∃ history : History, s'.turns = history.map (·.1) ∧ s'.scope = .after history := by
  intro law
  have hran : ((run (.leisurely [reading]) (referring "r" ["a"]) "1").run ⟨0, false, some 50⟩
      (.ofPage () nowhere)).1.isSome = true ∧
      ((run (.leisurely [reading]) (referring "r" ["a"]) "1").run ⟨0, false, some 50⟩
        (.ofPage () nowhere)).2.2.turns.map (·.step.instruction) = [.runScenario "a"] ∧
      ((run (.leisurely [reading]) (referring "r" ["a"]) "1").run ⟨0, false, some 50⟩
        (.ofPage () nowhere)).2.2.scope.get? "v" = some "7" := by decide +kernel
  generalize hrun : (run (.leisurely [reading]) (referring "r" ["a"]) "1").run ⟨0, false, some 50⟩
    (.ofPage () nowhere) = res at hran
  obtain ⟨_ | record, c', s'⟩ := res
  · cases hran.1
  obtain ⟨-, hinstructions, hscope⟩ := hran
  obtain ⟨history, hturns, hlaw⟩ := law _ _ _ _ _ _ hrun
  rw [hturns, List.map_map] at hinstructions
  obtain ⟨⟨t, text⟩, rest, rfl, ht, hrest⟩ := List.map_eq_cons_iff.mp hinstructions
  rw [List.map_eq_nil_iff.mp hrest] at hlaw
  have unset : t.sets text .empty = .empty := t.sets_of_unread text _ fun target saveAs h => by
    rw [show t.step.instruction = .runScenario "a" from ht] at h
    cases h
  simp only at hscope
  rw [hlaw, show Scope.after [(t, text)] = t.sets text .empty from rfl, unset] at hscope
  cases hscope

end Run

end Rehearsal
