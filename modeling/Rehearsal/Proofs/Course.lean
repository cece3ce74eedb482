import Mathlib.Logic.Relation
import Rehearsal.Proofs.FailurePolicy

/-! # The course of a step

Everything that can happen between the start and the end of a step, said once: the moves it makes by
itself, the variable it may set, and the scenario it may have played by a runner. With this, what a
runner does follows from what the scenarios do that it plays.
-/
namespace Rehearsal

open Timed (Maintains Whatever)

variable {σ α β : Type}

/-- What a step's work under a watch brings about, with its result or its failure. -/
def Work.Brings (w : Watch) (J : World σ × Trace → Prop) (Q : α → World σ × Trace → Prop)
    (P : Failure → World σ × Trace → Prop) (E : World σ × Trace → Prop) (work : Work σ α) : Prop :=
  Timed.Brings w J (fun r y => Answers (Q · y) (P · y) r) E work.run

namespace Work.Brings

variable {w : Watch} {J : World σ × Trace → Prop} {Q : α → World σ × Trace → Prop}
  {R : β → World σ × Trace → Prop} {P : Failure → World σ × Trace → Prop}
  {E : World σ × Trace → Prop} {work : Work σ β}

theorem bind {f : β → Work σ α} (hx : Work.Brings w J R P E work)
    (hf : ∀ b, Work.Brings w (R b) Q P E (f b)) : Work.Brings w J Q P E (work >>= f) := by
  refine Timed.Brings.bind hx fun r => ?_
  cases r with
  | ok b => exact hf b
  | error e => exact .pure fun _ h => h

/-- What holds all along work that maintains it. -/
theorem along (hx : Work.Maintains J Whatever (fun _ => True) work) (hR : ∀ b y, J y → R b y)
    (hP : ∀ e y, J y → P e y) (hE : ∀ y, J y → E y) : Work.Brings w J R P E work := by
  refine (Timed.Brings.of_maintains hx).mono (fun _ h => h) ?_ hE
  intro r y hr
  cases r with
  | ok b => exact hR b y hr.1
  | error e => exact hP e y hr.1

theorem alongBind {f : β → Work σ α} (hx : Work.Maintains J Whatever (fun _ => True) work)
    (hP : ∀ e y, J y → P e y) (hE : ∀ y, J y → E y) (hf : ∀ b, Work.Brings w J Q P E (f b)) :
    Work.Brings w J Q P E (work >>= f) :=
  bind (along hx (fun _ _ h => h) hP hE) hf

theorem throw {e : Failure} (h : ∀ y, J y → P e y) : Work.Brings w J R P E (throw e) :=
  Timed.Brings.pure h

/-- What is known of each result is known of them all. -/
theorem results {K : Except Failure β → World σ × Trace → Prop}
    (h : Work.Brings w J (fun b => K (.ok b)) (fun e => K (.error e)) E work) :
    Timed.Brings w J K E work.run := by
  refine Timed.Brings.mono h (fun _ h => h) ?_ fun _ h => h
  intro r y hr
  cases r with
  | ok b => exact hr
  | error e => exact hr

end Work.Brings

namespace Work

variable {stage : Stage σ} {place : Place} {w : Watch} {J E : World σ × Trace → Prop}
  {P : Failure → World σ × Trace → Prop} (firm : stage.Firm place J)

include firm

theorem brings_note (line : String) : Work.Brings w J (fun _ => J) P E (note stage place line) := by
  rintro c ⟨s, t⟩ h
  show Timed.Left _ _ ((stage.note place line >>= fun a => pure (Except.ok a)) w c (s, t))
  rw [Timed.bind_of_done (stage.note_apply ..)]
  exact firm (.note line) (firm (.say _) h)

theorem brings_say (lines : List LogLine) : Work.Brings w J (fun _ => J) P E (say lines) :=
  fun _ _ h => firm (.say lines) h

theorem brings_setSelector (selector : String) :
    Work.Brings w J (fun _ => J) P E (setSelector selector) :=
  fun _ _ h => firm (.selector selector) h

end Work

/-- One comes to the other by moves of the step itself. -/
abbrev Stage.MovesTo (stage : Stage σ) (place : Place) : World σ × Trace → World σ × Trace → Prop :=
  Relation.ReflTransGen (stage.Moves place)

/-- What moves of a step's own come to: they add lines to its trace, which are told, and leave the
variables, the turns, the count of steps and the children alone. -/
structure Stage.Moved (stage : Stage σ) (place : Place) (lines : List String)
    (x y : World σ × Trace) : Prop where
  events : y.1.events = x.1.events ++
    stage.told (place.logged lines)
  logs : y.2.logs = x.2.logs ++ lines
  children : y.2.children = x.2.children
  scope : y.1.scope = x.1.scope
  turns : y.1.turns = x.1.turns
  begun : y.1.begun = x.1.begun
  desk : stage.Reaches x.1.desk y.1.desk

theorem Stage.Moved.refl (stage : Stage σ) (place : Place) (x : World σ × Trace) :
    stage.Moved place [] x x :=
  ⟨by simp, by simp, rfl, rfl, rfl, rfl, .refl⟩

theorem Stage.Moved.trans {stage : Stage σ} {place : Place} {lines lines' : List String}
    {x y z : World σ × Trace} (h : stage.Moved place lines x y) (h' : stage.Moved place lines' y z) :
    stage.Moved place (lines ++ lines') x z where
  events := by rw [h'.events, h.events, place.logged_append, stage.told_append, List.append_assoc]
  logs := by rw [h'.logs, h.logs, List.append_assoc]
  children := h'.children.trans h.children
  scope := h'.scope.trans h.scope
  turns := h'.turns.trans h.turns
  begun := h'.begun.trans h.begun
  desk := h.desk.trans h'.desk

theorem Stage.Moves.moved {stage : Stage σ} {place : Place} {x y : World σ × Trace}
    (h : stage.Moves place x y) : ∃ lines, stage.Moved place lines x y := by
  cases h with
  | note line =>
    refine ⟨[line], stage.events_heard _ _, rfl, rfl, stage.scope_heard _ _, stage.turns_heard _ _,
      stage.begun_heard _ _, ?_⟩
    rw [stage.desk_heard]
    exact .refl
  | picture name png => exact ⟨[], by simp, by simp, rfl, rfl, rfl, rfl, .screenshot .refl name png⟩
  | session key session => exact ⟨[], by simp, by simp, rfl, rfl, rfl, rfl, .session .refl key session⟩
  | _ => exact ⟨[], by simp [World.say], by simp, rfl, rfl, rfl, rfl, .refl⟩

theorem Stage.MovesTo.moved {stage : Stage σ} {place : Place} {x y : World σ × Trace}
    (h : stage.MovesTo place x y) : ∃ lines, stage.Moved place lines x y := by
  induction h with
  | refl => exact ⟨[], .refl stage place x⟩
  | tail moves move ih =>
    obtain ⟨lines, hlines⟩ := ih
    obtain ⟨more, hmore⟩ := move.moved
    exact ⟨lines ++ more, hlines.trans hmore⟩

theorem Stage.firm_movesTo (stage : Stage σ) (place : Place) (x : World σ × Trace) :
    stage.Firm place (stage.MovesTo place x) :=
  fun _ _ move moves => moves.tail move

theorem Stage.Firm.along {stage : Stage σ} {place : Place} {J : World σ × Trace → Prop}
    (firm : stage.Firm place J) {x y : World σ × Trace} (moves : stage.MovesTo place x y) (h : J x) :
    J y := by
  induction moves with
  | refl => exact h
  | tail _ move ih => exact firm move ih

/-- From `x` one comes to `y` by moves of the step itself, and by something else between them. -/
def Stage.Around (stage : Stage σ) (place : Place) (x : World σ × Trace)
    (Q : World σ × Trace → World σ × Trace → Prop) (y : World σ × Trace) : Prop :=
  ∃ a b, stage.MovesTo place x a ∧ Q a b ∧ stage.MovesTo place b y

theorem Stage.firm_around (stage : Stage σ) (place : Place) (x : World σ × Trace)
    (Q : World σ × Trace → World σ × Trace → Prop) : stage.Firm place (stage.Around place x Q) := by
  rintro y z move ⟨a, b, before, happens, after⟩
  exact ⟨a, b, before, happens, after.tail move⟩

namespace Stage.Around

variable {stage : Stage σ} {place : Place} {x y : World σ × Trace}
  {Q R : World σ × Trace → World σ × Trace → Prop}

theorem moved (h : stage.Around place x Q y) :
    ∃ a b lines lines', stage.Moved place lines x a ∧ Q a b ∧ stage.Moved place lines' b y := by
  obtain ⟨a, b, before, happens, after⟩ := h
  obtain ⟨lines, before⟩ := before.moved
  obtain ⟨lines', after⟩ := after.moved
  exact ⟨a, b, lines, lines', before, happens, after⟩

theorem mono (h : stage.Around place x Q y) (hQ : ∀ a b, Q a b → R a b) : stage.Around place x R y := by
  obtain ⟨a, b, before, happens, after⟩ := h
  exact ⟨a, b, before, hQ a b happens, after⟩

/-- What is known from a later moment on is known from an earlier one. -/
theorem since {x' : World σ × Trace} (h : stage.Around place x Q y) (moves : stage.MovesTo place x' x) :
    stage.Around place x' Q y := by
  obtain ⟨a, b, before, happens, after⟩ := h
  exact ⟨a, b, moves.trans before, happens, after⟩

end Stage.Around

namespace Perform

variable {stage : Stage σ} {place : Place} {w : Watch} {J : World σ × Trace → Prop}

/-- Of an element that was found it is known that it was looked for, and in what state of the world. -/
theorem brings_find (firm : stage.Firm place J) (candidates : List String) (wanted : Wanted)
    (timeout : Nat) :
    Work.Brings w J (fun located y => J y ∧ ∃ c c' s, J (s, y.2) ∧
        locate stage.browser candidates wanted timeout w c s = (.done (.ok located), c', y.1))
      (fun _ => J) J (find stage candidates wanted timeout) := by
  refine (Timed.Brings.onFirst_of_maintains fun t =>
    maintains_locate (P := fun _ => True) ((firm.undisturbed t).keeps _) (fun _ _ => trivial) candidates
      wanted
      timeout).mono (fun _ h => h) ?_ (fun _ h => h)
  rintro r y ⟨hy, c, c', s, before, done⟩
  cases r with
  | ok located => exact ⟨hy, c, c', s, before, done⟩
  | error e => exact hy

/-- Nothing can come between a text that was read and the variable that is set to it. -/
theorem brings_extract (firm : stage.Firm place J) (candidates : List String) (saveAs : String)
    (timeout : Nat) :
    Work.Brings w J
      (fun _ y => ∃ located s t s₁ t₁, J (s, t) ∧
        (∃ c c' s₀, J (s₀, t₁) ∧ locate stage.browser candidates (.perform .readText) timeout w c s₀ =
          (.done (.ok located), c', s₁)) ∧ stage.MovesTo place (s₁, t₁) (s, t) ∧
        saveAs ++ " = " ++ Text.truncate (Text.trim (located.output.getD "")) 80 ∈ t.logs ∧
        y = ({ s with scope := s.scope.set saveAs (Text.trim (located.output.getD "")) },
          { t with selector := some located.selector }))
      (fun _ => J) J (extract stage place candidates saveAs timeout) := by
  refine .bind (brings_find firm candidates _ timeout) fun located => ?_
  rintro c ⟨s, t⟩ ⟨h, c₁, c₂, s₀, before, found⟩
  show Timed.Left _ _ (((stage.note place _ >>= fun a => pure (Except.ok a)) >>= _) w c (s, t))
  rw [Timed.bind_of_done (Timed.bind_of_done (stage.note_apply ..))]
  refine ⟨located, _, _, s, t, firm (.note _) (firm (.say _) h), ⟨c₁, c₂, s₀, before, found⟩,
    .tail (.single (.say _)) (.note _), ?_, rfl⟩
  exact List.mem_append_right _ (List.mem_singleton.mpr rfl)

end Perform

/-- The failure of a step whose scenario failed so. That of a login is told as such, unless it is one
that ends more than the step. -/
def Step.passOn (s : Step) (e : Failure) : Failure :=
  match s.instruction with
  | .ensureLogin rule =>
    if e.isFatal || e = .cancelled then e else .login rule.loginScenario e.message
  | _ => e

/-- The result `r` of a step goes with `r'`, what became of the scenario that it had played: the step
is given up with it, and fails if it failed. -/
def Step.Bears (s : Step) (r : Option (Except Failure Unit)) : Option (Except Failure Unit) → Prop
  | none => r = none
  | some (.ok _) => True
  | some (.error e) => ∀ r', r = some r' → r' = .error (s.passOn e)

namespace Play

section

variable (stage : Stage σ) (runner : Runner σ) (place : Place) (stack : CallStack) (step : Step)

/-- A scenario was played to its end, was refused or was given up, and what this means for the step. -/
inductive Plays (id : String) :
    Option (Except Failure Unit) → World σ × Trace → World σ × Trace → Prop
  | refused {w : Watch} {c c' : Clock} {s s' : World σ} {t : Trace} {e : Failure}
    (watched : w.cancellable = true)
    (answer : runner id stack place.depth w c s = (.done (.error e), c', s')) :
    Plays id (some (.error e)) (s, t) (s', t)
  | settled {w : Watch} {c c' : Clock} {s s' : World σ} {t : Trace} {report : Report}
    (watched : w.cancellable = true)
    (answer : runner id stack place.depth w c s = (.done (.ok report), c', s')) :
    Plays id (some (report.settle id)) (s, t)
      (s', { t with children := t.children ++ report.outcomes })
  | givenUp {w : Watch} {c c' : Clock} {s s' : World σ} {t : Trace}
    {e : Exit (Except Failure Report)} (watched : w.cancellable = true)
    (dropped : runner id stack place.depth w c s = (e, c', s')) (left : ∀ a, e ≠ .done a) :
    Plays id none (s, t) (s', t)

/-- By moves of its own a step has come to `a` from where it found the element to be read, with the
variables as they are. -/
def Finds (target : String) (located : Located) (a : World σ × Trace) : Prop :=
  ∃ w c c' s₀ s₁ t₁, s₀.scope = a.1.scope ∧ s₀.turns = a.1.turns ∧
    locate stage.browser (stage.selectors.resolve (a.1.scope.fill target)) (.perform .readText)
      (step.options.timeout.getD stage.settings.defaultTimeout) w c s₀ =
        (.done (.ok located), c', s₁) ∧ stage.MovesTo place (s₁, t₁) a

/-- What happens in a step besides its own moves, once at most; `r` is its result, if it was not given
up. -/
inductive Happens (r : Option (Except Failure Unit)) : World σ × Trace → World σ × Trace → Prop
  | nothing {a : World σ × Trace}
    (unread : r = some (.ok ()) → ∀ target saveAs, step.instruction ≠ .extract target saveAs) :
    Happens r a a
  | reads {target saveAs : String} {located : Located} {s : World σ} {t : Trace}
    (instruction : step.instruction = .extract target saveAs)
    (found : Finds stage place step target located (s, t))
    (noted : saveAs ++ " = " ++ Text.truncate (Text.trim (located.output.getD "")) 80 ∈ t.logs)
    (succeeded : r = some (.ok ())) :
    Happens r (s, t) ({ s with scope := s.scope.set saveAs (Text.trim (located.output.getD "")) },
      { t with selector := some located.selector })
  | plays {id : String} {r' : Option (Except Failure Unit)} {a b : World σ × Trace}
    (reference : step.instruction.reference? = some id)
    (plays : Plays runner place stack id r' a b) (bears : step.Bears r r') : Happens r a b

/-- What a step comes to from `x` on; without a result it was given up. -/
abbrev Course (x : World σ × Trace) (r : Option (Except Failure Unit)) : World σ × Trace → Prop :=
  stage.Around place x (Happens stage runner place stack step r)

/-- What an attempt at a step came to. One that was given up is a failure where nobody further out was
to be cancelled. -/
def Tried (x : World σ × Trace) (w : Watch) (r : Except Failure Unit) (y : World σ × Trace) : Prop :=
  Course stage runner place stack step x (some r) y ∨
    (r = .error .cancelled ∧ w.cancellable = false ∧ Course stage runner place stack step x none y)

end

variable {stage : Stage σ} {runner : Runner σ} {place : Place} {stack : CallStack} {step : Step}
  {x : World σ × Trace} {w : Watch}

theorem Course.own {r : Option (Except Failure Unit)} {y : World σ × Trace}
    (moves : stage.MovesTo place x y)
    (unread : r = some (.ok ()) → ∀ target saveAs, step.instruction ≠ .extract target saveAs) :
    Course stage runner place stack step x r y :=
  ⟨y, y, moves, .nothing unread, .refl⟩

theorem Course.plays {id : String} {r r' : Option (Except Failure Unit)} {y : World σ × Trace}
    (reference : step.instruction.reference? = some id)
    (plays : stage.Around place x (Plays runner place stack id r') y) (bears : step.Bears r r') :
    Course stage runner place stack step x r y :=
  plays.mono fun _ _ plays => .plays reference plays bears

theorem firm_tried (r : Except Failure Unit) :
    stage.Firm place (Tried stage runner place stack step x w r) := by
  intro y z move h
  rcases h with h | ⟨hr, hw, h⟩
  · exact .inl (stage.firm_around _ _ _ move h)
  · exact .inr ⟨hr, hw, stage.firm_around _ _ _ move h⟩

theorem Tried.course {r : Except Failure Unit} {y : World σ × Trace}
    (h : Tried stage runner place stack step x w r y) :
    ∃ r', Course stage runner place stack step x r' y ∧
      (r' = none → r = .error .cancelled ∧ w.cancellable = false) := by
  rcases h with h | ⟨hr, hw, h⟩
  · exact ⟨some r, h, by simp⟩
  · exact ⟨none, h, fun _ => ⟨hr, hw⟩⟩

theorem Tried.ended {r : Except Failure Unit} {y : World σ × Trace}
    (h : Tried stage runner place stack step x w r y) :
    ∃ r', Course stage runner place stack step x r' y :=
  h.course.imp fun _ h => h.1

theorem Tried.since {b : World σ × Trace} {r : Except Failure Unit} {y : World σ × Trace}
    (moves : stage.MovesTo place b x) (h : Tried stage runner place stack step x w r y) :
    Tried stage runner place stack step b w r y := by
  rcases h with h | ⟨hr, hw, h⟩
  · exact .inl (h.since moves)
  · exact .inr ⟨hr, hw, h.since moves⟩

theorem settle_apply (report : Report) (id : String) (c : Clock) (s : World σ) (t : Trace) :
    (Work.settle report id : Work σ Unit).run w c (s, t) =
      (.done (report.settle id), c, s, { t with children := t.children ++ report.outcomes }) := rfl

section

variable (watched : w.cancellable = true)

include watched

theorem brings_perform (id : String) :
    Timed.Brings w (stage.MovesTo place x)
      (fun r => stage.Around place x (Plays runner place stack id (some r)))
      (stage.Around place x (Plays runner place stack id none))
      (Login.perform runner place stack id).run := by
  refine Work.Brings.results (.bind (R := fun report y => ∃ c s c', stage.MovesTo place x (s, y.2) ∧
    runner id stack place.depth w c s = (.done (.ok report), c', y.1)) ?_ fun report => ?_)
  · refine Timed.Brings.onFirst.mono (fun _ h => h) ?_ ?_
    · rintro r ⟨s', t⟩ ⟨c, s, c', before, answer⟩
      cases r with
      | ok report => exact ⟨c, s, c', before, answer⟩
      | error e => exact ⟨_, _, before, .refused watched answer, .refl⟩
    · rintro ⟨s', t⟩ ⟨c, s, e, c', before, dropped, left⟩
      exact ⟨_, _, before, .givenUp watched dropped left, .refl⟩
  · rintro c ⟨s', t⟩ ⟨c₁, s, c', before, answer⟩
    rw [settle_apply]
    have settled : stage.Around place x (Plays runner place stack id (some (report.settle id)))
        (s', { t with children := t.children ++ report.outcomes }) :=
      ⟨_, _, before, .settled watched answer, .refl⟩
    generalize report.settle id = r at settled ⊢
    cases r with
    | ok u => exact settled
    | error e => exact settled

theorem brings_runScenario {id : String} (instruction : step.instruction = .runScenario id)
    (stem : String) (timeout : Nat) :
    Timed.Brings w (stage.MovesTo place x)
      (fun r => Course stage runner place stack step x (some r))
      (Course stage runner place stack step x none)
      (Perform.deed stage runner place stack stem timeout (.runScenario id)).run := by
  have firm := stage.firm_movesTo place x
  have reference : step.instruction.reference? = some id := by rw [instruction]; rfl
  refine Work.Brings.results (.bind (Work.brings_say firm _) fun _ =>
    .bind (Work.brings_setSelector firm _) fun _ => ?_)
  refine (brings_perform watched id).mono (fun _ h => h) ?_ fun y hy => .plays reference hy rfl
  intro r y hr
  cases r with
  | ok u => exact .plays reference hr trivial
  | error e =>
    refine .plays reference hr ?_
    rintro r' ⟨⟩
    rw [Step.passOn, instruction]

theorem brings_ensureLogin {rule : LoginRule} {login : LoginTask}
    (instruction : step.instruction = .ensureLogin rule)
    (same : login.loginScenario = rule.loginScenario) (stem : String) (timeout : Nat) :
    Timed.Brings w (stage.MovesTo place x)
      (fun r => Course stage runner place stack step x (some r))
      (Course stage runner place stack step x none)
      (Perform.deed stage runner place stack stem timeout (.ensureLogin login)).run := by
  have firm := stage.firm_movesTo place x
  have reference : step.instruction.reference? = some login.loginScenario := by
    rw [instruction, same]
    rfl
  have own : ∀ r y, stage.MovesTo place x y → Course stage runner place stack step x r y :=
    fun r y moves => .own moves (by simp [instruction])
  refine Work.Brings.results ?_
  refine .bind (Work.brings_note firm _) fun _ => ?_
  refine .alongBind (Login.maintains_load firm.endures stage.tolerates_true _) (fun _ => own _) (own _)
    fun restored => ?_
  refine .alongBind (Login.maintains_visit firm.endures stage.tolerates_true _ _) (fun _ => own _) (own _)
    fun _ => ?_
  refine .alongBind (Login.maintains_check firm.endures stage.tolerates_true _ _) (fun _ => own _) (own _)
    fun loggedIn => ?_
  cases loggedIn with
  | true =>
    refine .bind (Work.brings_note firm _) fun _ => ?_
    exact .along (Work.maintains_setSelector firm.endures _) (fun _ => own _) (fun _ => own _) (own _)
  | false =>
    refine .bind (Work.brings_note firm _) fun _ => ?_
    refine .bind (Work.brings_say firm _) fun _ => ?_
    -- From here on what matters is how the login went.
    refine .bind (R := fun r =>
      stage.Around place x (Plays runner place stack login.loginScenario (some r))) ?_ fun r => ?_
    · refine (Timed.Brings.bind (brings_perform watched _) fun r => .pure ?_).mono (fun _ h => h)
        (fun _ _ h => h) fun y hy => Course.plays reference hy rfl
      exact fun y hr => hr
    have firm := stage.firm_around place x (Plays runner place stack login.loginScenario (some r))
    cases r with
    | error e =>
      have told : step.passOn e =
          if e.isFatal || e = .cancelled then e else .login login.loginScenario e.message := by
        rw [Step.passOn, instruction, same]
      simp only
      split
      · rename_i hends
        refine .throw fun y plays => .plays reference plays ?_
        rintro r' ⟨⟩
        rw [told, if_pos hends]
      · rename_i hends
        refine .bind (Work.brings_note firm _) fun _ => ?_
        refine .bind (Work.brings_say firm _) fun _ => ?_
        refine .throw fun y plays => .plays reference plays ?_
        rintro r' ⟨⟩
        rw [told, if_neg hends]
    | ok u =>
      have last : ∀ r y,
          stage.Around place x (Plays runner place stack login.loginScenario (some (.ok u))) y →
          Course stage runner place stack step x r y :=
        fun r y plays => .plays reference plays trivial
      refine .alongBind (Login.maintains_save firm.endures stage.tolerates_true _) (fun _ => last _) (last _)
        fun _ => ?_
      refine .alongBind (Login.maintains_visit firm.endures stage.tolerates_true _ _) (fun _ => last _)
        (last _) fun _ => ?_
      refine .bind (Work.brings_note firm _) fun _ => ?_
      exact .along (Work.maintains_setSelector firm.endures _) (fun _ => last _) (fun _ => last _) (last _)

end

theorem brings_extract {target saveAs : String} {candidates : List String} {timeout : Nat}
    (instruction : step.instruction = .extract target saveAs)
    (hcandidates : stage.selectors.resolve (x.1.scope.fill target) = candidates)
    (htimeout : step.options.timeout.getD stage.settings.defaultTimeout = timeout) :
    Work.Brings w (stage.MovesTo place x)
      (fun _ => Course stage runner place stack step x (some (.ok ())))
      (fun e => Course stage runner place stack step x (some (.error e))) (stage.MovesTo place x)
      (Perform.extract stage place candidates saveAs timeout) := by
  have reads := Perform.brings_extract (w := w) (stage.firm_movesTo place x) candidates saveAs timeout
  refine Timed.Brings.mono reads (fun _ h => h) ?_ fun _ h => h
  intro r y hr
  cases r with
  | error e => exact .own hr (by simp)
  | ok u =>
    obtain ⟨located, s, t, s₁, t₁, moves, ⟨c, c', s₀, before, found⟩, onward, noted, rfl⟩ := hr
    obtain ⟨_, begun⟩ := before.moved
    obtain ⟨_, ended⟩ := moves.moved
    refine ⟨_, _, moves, .reads instruction ⟨w, c, c', s₀, s₁, t₁, ?_, ?_, ?_, onward⟩ noted rfl,
      .refl⟩
    · exact begun.scope.trans ended.scope.symm
    · exact begun.turns.trans ended.turns.symm
    · rw [ended.scope, hcandidates, htimeout, found]

/-- What a step does under the watch of its time limit and of a cancellation. -/
theorem brings_guarded {d : Desk} {stem : String} {task : Task}
    (made : stage.task d x.1.scope step = .ok task) (watched : w.cancellable = true) :
    Timed.Brings w (stage.MovesTo place x)
      (fun r y => Course stage runner place stack step x (some r) y)
      (Course stage runner place stack step x none)
      (guarded task (Perform.deed stage runner place stack stem task.timeout task.deed).run) := by
  have firm := stage.firm_movesTo place x
  obtain ⟨makes, htimeout⟩ := Bench.makes_of_task made
  obtain ⟨action, timeout, deed, unset⟩ := task
  simp only at makes htimeout ⊢
  generalize hinstruction : step.instruction = instruction at makes
  cases makes with
  | reads target saveAs =>
    generalize hcandidates : stage.selectors.resolve (x.1.scope.fill target) = candidates
    have reads : ∀ w, Timed.Brings w (stage.MovesTo place x)
        (fun r => Course stage runner place stack step x (some r)) (stage.MovesTo place x)
        (Perform.extract stage place candidates saveAs timeout).run :=
      fun w => (brings_extract hinstruction hcandidates htimeout.symm).results
    refine Timed.Brings.mono (.bind (.within fun d => reads _) fun r => ?_) (fun _ h => h)
      (fun _ _ h => h) fun y moves => .own moves (by simp)
    cases r with
    | some r =>
      refine .pure ?_
      rintro y (⟨_, ⟨⟩, hr⟩ | ⟨⟨⟩, -⟩)
      exact hr
    | none =>
      refine .pure ?_
      rintro y (⟨_, ⟨⟩, -⟩ | ⟨-, moves⟩)
      exact .own moves (by simp)
  | plays id =>
    exact brings_runScenario watched hinstruction stem timeout
  | logsIn same =>
    exact brings_ensureLogin watched hinstruction same stem timeout
  | neither plays refers reads unread =>
    have own := maintains_guarded (P := fun _ => True) (fun _ _ => trivial)
      (Perform.maintains_own firm.endures stage.tolerates_true (fun _ => firm.shown) plays reads runner
        stack stem timeout)
      ⟨action, timeout, deed, unset⟩
    refine (Timed.Brings.of_maintains own).mono (fun _ h => h) ?_ ?_
    · intro r y hr
      exact .own hr.1 fun _ => hinstruction ▸ unread
    · intro y moves
      exact .own moves (by simp)

/-- What is known of an attempt at a step, from where it is made ready. -/
theorem brings_attempt (stem : String) :
    Timed.Brings w (· = x) (Tried stage runner place stack step x w)
      (Course stage runner place stack step x none) (attempt stage runner place stack stem step) := by
  have firm := stage.firm_movesTo place x
  have own : ∀ y, stage.MovesTo place x y → Course stage runner place stack step x none y :=
    fun y moves => .own moves (by simp)
  rintro c ⟨s, t⟩ rfl
  unfold attempt
  rw [Timed.bind_of_done (Timed.onFirst_of_done (Timed.desk_apply ..) t),
    Timed.bind_of_done (Timed.onFirst_of_done (Timed.scope_apply ..) t),
    Timed.bind_of_done (Timed.onFirst_of_done (Timed.say_apply ..) t)]
  have moves := firm (.say (stage.referenceLines s.scope step.instruction)) .refl
  cases made : stage.task s.desk s.scope step with
  | error e => exact .inl (.own moves (by simp))
  | ok task =>
    refine Timed.Brings.alongBind (maintains_warnings firm.endures task.unset) own (fun _ => ?_) c _ moves
    refine .bind (.untilCancelled (brings_guarded made rfl)) fun r => ?_
    cases r with
    | some r =>
      refine .pure ?_
      rintro y (⟨_, ⟨⟩, hr⟩ | ⟨⟨⟩, -⟩)
      exact .inl hr
    | none =>
      refine .pure ?_
      rintro y (⟨_, ⟨⟩, -⟩ | ⟨-, moves | ⟨givenUp, hw⟩⟩)
      · exact .inl (.own moves (by simp))
      · exact .inr ⟨rfl, hw, givenUp⟩

/-- An attempt was made at a step after moves of its own that left its trace alone, and what followed
were moves of its own. -/
def Attempted (stage : Stage σ) (runner : Runner σ) (place : Place) (stack : CallStack) (step : Step)
    (x : World σ × Trace) (w : Watch) (r : Except Failure Unit) (y : World σ × Trace) : Prop :=
  ∃ stem c c' s b, stage.MovesTo place x (s, x.2) ∧
    attempt stage runner place stack stem step w c (s, x.2) = (.done r, c', b) ∧
    stage.MovesTo place b y

theorem firm_attempted (r : Except Failure Unit) :
    stage.Firm place (Attempted stage runner place stack step x w r) := by
  rintro y z move ⟨stem, c, c', s, b, before, attempt, after⟩
  exact ⟨stem, c, c', s, b, before, attempt, after.tail move⟩

theorem Attempted.tried {r : Except Failure Unit} {y : World σ × Trace}
    (h : Attempted stage runner place stack step x w r y) :
    Tried stage runner place stack step x w r y := by
  obtain ⟨stem, c, c', s, b, before, attempt, after⟩ := h
  have tried := (brings_attempt stem).left rfl attempt
  exact ((firm_tried r).along after tried).since before

end Play

end Rehearsal
