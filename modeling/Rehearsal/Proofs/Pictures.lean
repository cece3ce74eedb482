import Rehearsal.Proofs.Detours
import Rehearsal.Proofs.PictureNames
import Rehearsal.Proofs.Telling

/-! # The pictures of a step

A step gives pictures to the sink under its own two names at most: one if it is there for a picture or if
its success is captured, and one if it fails. What else is given to the sink in its turn was given by the
scenario that it had played, before its own. The picture that its outcome refers to is one of its own,
by the reference that the sink has answered with.
-/
namespace Rehearsal

open Timed (Maintains Whatever)

variable {σ : Type}

theorem Bench.deed_of_screenshot {b : Bench} {d : Desk} {scope : Scope} {step : Step} {task : Task}
    (made : b.task d scope step = .ok task) (instruction : step.instruction = .screenshot) :
    task.deed = .screenshot := by
  unfold Bench.task at made
  rw [instruction] at made
  cases made
  rfl

/-- A picture that was given to the sink under a name, with the answer of the sink. -/
structure Picture where
  name : String
  answer : Except Failure String

/-- The desk has come to be so while these pictures were given to the sink, and perhaps sessions to their
store. -/
inductive Stage.Stores (stage : Stage σ) (d : Desk) : List Picture → Desk → Prop
  | nothing : stage.Stores d [] d
  | picture {d' : Desk} {pictures : List Picture} (h : stage.Stores d pictures d') (name : String)
    (png : Disk.Bytes) :
    stage.Stores d (pictures ++ [⟨name, (stage.sink.storeScreenshot d' name png).1⟩])
      (stage.sink.storeScreenshot d' name png).2
  | session {d' : Desk} {pictures : List Picture} (h : stage.Stores d pictures d') (key : Session.Key)
    (session : SavedSession) : stage.Stores d pictures (stage.sessions.put d' key session).2.1

theorem Stage.Stores.trans {stage : Stage σ} {d d' d'' : Desk} {pictures more : List Picture}
    (h : stage.Stores d pictures d') (h' : stage.Stores d' more d'') :
    stage.Stores d (pictures ++ more) d'' := by
  induction h' with
  | nothing =>
    rw [List.append_nil]
    exact h
  | picture _ name png ih =>
    rw [← List.append_assoc]
    exact .picture ih name png
  | session _ key session ih => exact .session ih key session

/-- A reading of the desk to which every picture that is given to the sink is added, and nothing else. -/
structure Stage.Records (stage : Stage σ) (read : Desk → List Picture) : Prop where
  picture : ∀ d name png, read (stage.sink.storeScreenshot d name png).2 =
    read d ++ [⟨name, (stage.sink.storeScreenshot d name png).1⟩]
  session : ∀ d key session, read (stage.sessions.put d key session).2.1 = read d

theorem Stage.Stores.read {stage : Stage σ} {d d' : Desk} {pictures : List Picture}
    {read : Desk → List Picture} (h : stage.Stores d pictures d') (records : stage.Records read) :
    read d' = read d ++ pictures := by
  induction h with
  | nothing => exact (List.append_nil _).symm
  | picture _ name png ih => rw [records.picture, ih, List.append_assoc]
  | session _ key session ih => rw [records.session, ih]

/-- A step that was begun, with its number in the run. -/
structure Begun where
  number : Nat
  place : Place
  step : Step

/-- How the start of the step is told. -/
def Begun.event (b : Begun) : Event := b.place.started b.step.action b.step.name

/-- The starts of steps among what was told. -/
def Event.starts (es : List Event) : List Event :=
  es.filter fun
    | .stepStarted .. => true
    | _ => false

theorem Event.starts_append (es es' : List Event) : starts (es ++ es') = starts es ++ starts es' :=
  List.filter_append ..

theorem Event.starts_told {e : Event} (other : starts [e] = []) (stage : Stage σ) :
    starts (stage.told [e]) = [] := by
  unfold Stage.told
  split
  · exact other
  · rfl

/-- From `x` to `y` these steps were begun, in this order, and these pictures were given to the sink. -/
structure Stage.Passes (stage : Stage σ) (began : List Begun) (pictures : List Picture) (x y : World σ) :
    Prop where
  begun : y.begun = x.begun + began.length
  numbers : began.map (·.number) = List.range' (x.begun + 1) began.length
  events : ∃ es, y.events = x.events ++ es ∧ Event.starts es = stage.told (began.map (·.event))
  desk : stage.Stores x.desk pictures y.desk

namespace Stage.Passes

variable {stage : Stage σ} {began more : List Begun} {pictures others : List Picture} {x y z : World σ}

theorem refl (x : World σ) : stage.Passes [] [] x x :=
  ⟨rfl, rfl, ⟨[], by simp, by simp [Event.starts]⟩, .nothing⟩

theorem trans (h : stage.Passes began pictures x y) (h' : stage.Passes more others y z) :
    stage.Passes (began ++ more) (pictures ++ others) x z where
  begun := by rw [h'.begun, h.begun, List.length_append, Nat.add_assoc]
  numbers := by
    rw [List.map_append, h.numbers, h'.numbers, h.begun, List.length_append, Nat.add_right_comm,
      List.range'_append_1]
  events := by
    obtain ⟨es, hes, hstarts⟩ := h.events
    obtain ⟨es', hes', hstarts'⟩ := h'.events
    refine ⟨es ++ es', by rw [hes', hes, List.append_assoc], ?_⟩
    rw [Event.starts_append, hstarts, hstarts', List.map_append, stage.told_append]
  desk := h.desk.trans h'.desk

/-- A world that differs at most in the page, the variables, the turns and the log. -/
theorem of_eq (begun : y.begun = x.begun) (events : y.events = x.events) (desk : y.desk = x.desk) :
    stage.Passes [] [] x y :=
  ⟨begun, rfl, ⟨[], by rw [events, List.append_nil], by simp [Event.starts]⟩, desk ▸ .nothing⟩

theorem heard {e : Event} (other : Event.starts [e] = []) (x : World σ) :
    stage.Passes [] [] x (stage.heard e x) where
  begun := stage.begun_heard ..
  numbers := rfl
  events := ⟨_, stage.events_heard .., (Event.starts_told other stage).trans stage.told_nil.symm⟩
  desk := by
    rw [stage.desk_heard]
    exact .nothing

theorem note (place : Place) (line : String) (lines : List LogLine) (x : World σ) :
    stage.Passes [] [] x
      (stage.heard (.stepLog place.scenario place.depth place.index line) (x.say lines)) := by
  have said : stage.Passes [] [] x (x.say lines) := .of_eq rfl rfl rfl
  exact said.trans (.heard rfl _)

theorem opens (stage : Stage σ) (place : Place) (step : Step) (x : World σ) :
    stage.Passes [⟨x.begun + 1, place, step⟩] [] x (stage.opens place step x) where
  begun := stage.begun_opens ..
  numbers := rfl
  events := by
    refine ⟨_, stage.events_opens .., ?_⟩
    unfold Stage.told
    split
    · rfl
    · rfl
  desk := by
    rw [stage.desk_opens]
    exact .nothing

theorem closes (stage : Stage σ) (t : Turn) (x : World σ) : stage.Passes [] [] x (stage.closes t x) := by
  have said : stage.Passes [] [] x (x.say [Narration.stepEnd t.place t.outcome]) := .of_eq rfl rfl rfl
  exact (said.trans (.heard (e := .stepEnded t.place.scenario t.place.depth t.outcome) rfl _)).trans
    (.of_eq rfl rfl rfl)

theorem resembles (h : x.Resembles y) : stage.Passes [] [] x y := .of_eq h.begun h.events h.desk

end Stage.Passes

/-- Between two moments a step has done nothing but give these pictures to the sink and keep one of them
perhaps. -/
structure Stage.Shoots (stage : Stage σ) (own : List Picture) (x y : World σ × Trace) : Prop where
  passes : stage.Passes [] own x.1 y.1
  children : y.2.children = x.2.children
  screenshot : y.2.screenshot = x.2.screenshot ∨
    ∃ p ∈ own, ∃ reference, p.answer = .ok reference ∧ y.2.screenshot = some reference

namespace Stage.Shoots

variable {stage : Stage σ} {own more : List Picture} {x y z : World σ × Trace}

theorem trans (h : stage.Shoots own x y) (h' : stage.Shoots more y z) : stage.Shoots (own ++ more) x z where
  passes := h.passes.trans h'.passes
  children := h'.children.trans h.children
  screenshot := by
    rcases h'.screenshot with same | ⟨p, hp, kept⟩
    · rcases h.screenshot with same' | ⟨p, hp, reference, hreference, kept⟩
      · exact .inl (same.trans same')
      · exact .inr ⟨p, List.mem_append_left _ hp, reference, hreference, same.trans kept⟩
    · exact .inr ⟨p, List.mem_append_right _ hp, kept⟩

theorem of_passes {s s' : World σ} {t : Trace} (h : stage.Passes [] own s s') :
    stage.Shoots own (s, t) (s', t) := ⟨h, rfl, .inl rfl⟩

theorem refl (x : World σ × Trace) : stage.Shoots [] x x := of_passes (.refl x.1)

variable (stage)

theorem stored (s : World σ) (t : Trace) (name : String) (png : Disk.Bytes) :
    stage.Shoots [⟨name, (stage.sink.storeScreenshot s.desk name png).1⟩] (s, t)
      ({ s with desk := (stage.sink.storeScreenshot s.desk name png).2 }, t) :=
  of_passes ⟨rfl, rfl, ⟨[], by simp, by simp [Event.starts]⟩, .picture .nothing name png⟩

/-- The step keeps the reference that the sink has answered with. -/
theorem kept {s s' : World σ} {t : Trace} {name reference : String} {png : Disk.Bytes}
    (answered : (stage.sink.storeScreenshot s.desk name png).1 = .ok reference)
    (moves : stage.Passes [] [] { s with desk := (stage.sink.storeScreenshot s.desk name png).2 } s')
    (logs : List String) :
    stage.Shoots [⟨name, .ok reference⟩] (s, t) (s', { t with logs, screenshot := some reference }) where
  passes := answered ▸ (stored stage s t name png).passes.trans moves
  children := rfl
  screenshot := .inr ⟨_, List.mem_singleton.mpr rfl, reference, rfl, rfl⟩

end Stage.Shoots

/-- A sink on which pictures leave no trace. -/
def ArtifactSink.quiet (sink : ArtifactSink) : ArtifactSink :=
  { sink with storeScreenshot := fun d _ _ => (.ok "", d) }

/-- Where no picture reaches the sink, nothing is given to it by a step itself. -/
theorem respects_shoots (stage : Stage σ) (place : Place) :
    Stage.Respects { stage with sink := stage.sink.quiet } place (stage.Shoots []) where
  refl := .refl
  trans := .trans
  acts := by
    intro x y act
    cases act with
    | call offered ran => exact .of_passes (.resembles (resembles_of_run ran))
    | say lines => exact .of_passes (.of_eq rfl rfl rfl)
    | picture name png => exact .of_passes (.of_eq rfl rfl rfl)
    | @session s t key session =>
      exact .of_passes ⟨rfl, rfl, ⟨[], by simp, by simp [Event.starts]⟩, .session .nothing key session⟩
    | note line => exact ⟨.heard rfl _, rfl, .inl rfl⟩
    | selector selector => exact ⟨.refl _, rfl, .inl rfl⟩
  sets := fun _ _ _ => .of_passes (.of_eq rfl rfl rfl)

theorem Work.storeScreenshot_run (stage : Stage σ) (name : String) (png : Disk.Bytes) (w : Watch) (c : Clock)
    (s : World σ) (t : Trace) :
    (storeScreenshot stage name png).run w c (s, t) = (.done (stage.sink.storeScreenshot s.desk name png).1, c,
      ({ s with desk := (stage.sink.storeScreenshot s.desk name png).2 }, t)) := rfl

section

variable {α β : Type} {work : Work σ α} {f : α → Work σ β} {w : Watch} {c c' : Clock} {x y : World σ × Trace}

theorem Work.bind_of_ok {a : α} (h : work.run w c x = (.done (.ok a), c', y)) :
    (work >>= f).run w c x = (f a).run w c' y := Timed.bind_of_done h

theorem Work.bind_of_error {e : Failure} (h : work.run w c x = (.done (.error e), c', y)) :
    (work >>= f).run w c x = (.done (.error e), c', y) := Timed.bind_of_done h

end

namespace Play

/-- Whatever time it takes, a step gives no pictures to the sink but of these names, in this order. -/
def Shot (stage : Stage σ) (names : List String) (x y : Clock × World σ × Trace) : Prop :=
  ∃ own, (own.map (·.name)).Sublist names ∧ stage.Shoots own x.2 y.2

namespace Shot

variable {stage : Stage σ} {names more : List String} {x y z : Clock × World σ × Trace}

theorem trans (h : Shot stage names x y) (h' : Shot stage more y z) : Shot stage (names ++ more) x z := by
  obtain ⟨own, hown, shoots⟩ := h
  obtain ⟨own', hown', shoots'⟩ := h'
  refine ⟨own ++ own', ?_, shoots.trans shoots'⟩
  rw [List.map_append]
  exact hown.append hown'

theorem mono (h : Shot stage names x y) (hnames : names.Sublist more) : Shot stage more x y := by
  obtain ⟨own, hown, shoots⟩ := h
  exact ⟨own, hown.trans hnames, shoots⟩

theorem of_shoots (h : stage.Shoots [] x.2 y.2) : Shot stage names x y := ⟨[], List.nil_sublist _, h⟩

theorem of_onward (h : Onward (stage.Shoots []) x y) : Shot stage names x y := of_shoots h.goes

theorem since (h : Onward (stage.Shoots []) x y) (h' : Shot stage names y z) : Shot stage names x z := by
  have nothing : Shot stage [] x y := of_onward h
  exact nothing.trans h'

end Shot

variable {stage : Stage σ} {runner : Runner σ} {place : Place} {stack : CallStack} {step : Step}

theorem leads_capture (stage : Stage σ) (name : String) :
    Timed.Leads (Shot stage [name]) (capture stage name) := by
  have respects := respects_shoots stage ⟨"", 0, 0⟩
  have called := respects.leads fun x => maintains_called (respects.endures x) (.screenshot true)
  refine called.bind (T := Shot stage [name]) (fun r => ?_) (fun _ _ => .of_onward) fun _ _ _ => .since
  rintro w c ⟨s, t⟩
  cases r with
  | error fault => exact .of_shoots (.of_passes (.of_eq rfl rfl rfl))
  | ok png =>
    simp only
    rw [Timed.bind_of_done (Work.storeScreenshot_run ..)]
    have stored := Stage.Shoots.stored stage s t name png
    cases answered : (stage.sink.storeScreenshot s.desk name png).1 with
    | ok reference => exact ⟨_, List.Sublist.refl _, .kept stage answered (.refl _) t.logs⟩
    | error e => exact ⟨_, List.Sublist.refl _, stored.trans (.of_passes (.of_eq rfl rfl rfl))⟩

/-- The picture of a success is only taken after some actions, that of a failure after all. -/
def namesAfter (action : Action) (stem : String) : List String :=
  if isCaptured action then [stem ++ ".png", stem ++ "_error.png"] else [stem ++ "_error.png"]

theorem leads_captureAfter (stage : Stage σ) (action : Action) (stem : String) (r : Except Failure Unit) :
    Timed.Leads (Shot stage (namesAfter action stem)) (captureAfter stage action stem r) := by
  have nothing : ∀ y, Shot stage (namesAfter action stem) y y := fun y => .of_shoots (.refl _)
  unfold captureAfter
  cases r with
  | ok u =>
    simp only
    split
    · rename_i captured
      refine (leads_capture stage _).mono fun _ _ h => h.mono ?_
      rw [namesAfter, if_pos (Bool.and_eq_true_iff.mp captured).2]
      exact .cons_cons _ (List.nil_sublist _)
    · exact .pure nothing
  | error e =>
    simp only
    split
    · exact .pure nothing
    · refine (leads_capture stage _).mono fun _ _ h => h.mono ?_
      unfold namesAfter
      split
      · exact .cons _ (.refl _)
      · exact .refl _

/-- A picture that was asked for is given to the sink under the name of a success. -/
theorem leads_screenshot (stage : Stage σ) (runner : Runner σ) (place : Place) (stack : CallStack)
    (stem : String) (timeout : Nat) :
    Timed.Leads (Shot stage [stem ++ ".png"])
      (Perform.deed stage runner place stack stem timeout .screenshot).run := by
  have respects := respects_shoots stage place
  have asked := respects.leads fun x =>
    Work.maintains_ask (respects.endures x) (Stage.tolerates_true _) (.screenshot false)
  refine Work.leads_bind (T := Shot stage [stem ++ ".png"]) asked (fun png => ?_) (fun _ _ => .of_onward)
    fun _ _ _ => .since
  rintro w c ⟨s, t⟩
  have ran := Work.storeScreenshot_run stage (stem ++ ".png") png w c s t
  cases answered : (stage.sink.storeScreenshot s.desk (stem ++ ".png") png).1 with
  | error e =>
    rw [answered] at ran
    rw [Work.bind_of_error ran]
    exact ⟨_, List.Sublist.refl _, .stored stage s t (stem ++ ".png") png⟩
  | ok reference =>
    rw [answered] at ran
    rw [Work.bind_of_ok ran, Work.bind_of_ok (Work.note_run ..)]
    exact ⟨_, List.Sublist.refl _, .kept stage answered (.note place _ _ _) _⟩

/-- The names that an attempt at a step may give to pictures. -/
def namesOf (step : Step) (stem : String) : List String :=
  if step.instruction = .screenshot then [stem ++ ".png"] else []

/-- From `x` a step has come to `y`. The pictures besides its own were given to the sink by the runner, who
has played a scenario for it before. -/
inductive Tour (stage : Stage σ) (runner : Runner σ) (place : Place) (stack : CallStack) (own : List Picture)
    (x y : World σ × Trace) : Prop
  | alone (shoots : stage.Shoots own x y)
  | plays {id : String} {w : Watch} {c c' : Clock} {e : Exit (Except Failure Report)}
    {a b : World σ × Trace} (before : stage.Shoots [] x a)
    (ran : runner id stack place.depth w c a.1 = (e, c', b.1))
    (kept : b.2 = { a.2 with children := a.2.children ++ outcomesOf e })
    (after : stage.Shoots own b y)

/-- A tour with pictures of its own under these names at most, in this order. -/
def Toured (stage : Stage σ) (runner : Runner σ) (place : Place) (stack : CallStack) (names : List String)
    (x y : World σ × Trace) : Prop :=
  ∃ own, (own.map (·.name)).Sublist names ∧ Tour stage runner place stack own x y

namespace Toured

variable {names more : List String} {x y z : World σ × Trace}

theorem of_shot {c c' : Clock} (h : Shot stage names (c, x) (c', y)) :
    Toured stage runner place stack names x y := by
  obtain ⟨own, hown, shoots⟩ := h
  exact ⟨own, hown, .alone shoots⟩

theorem since (h : stage.Shoots [] x y) (h' : Toured stage runner place stack names y z) :
    Toured stage runner place stack names x z := by
  obtain ⟨own, hown, tour⟩ := h'
  refine ⟨own, hown, ?_⟩
  cases tour with
  | alone shoots => exact .alone (h.trans shoots)
  | plays before ran kept after => exact .plays (h.trans before) ran kept after

theorem further {own : List Picture} (h : Toured stage runner place stack names x y)
    (hown : (own.map (·.name)).Sublist more) (shoots : stage.Shoots own y z) :
    Toured stage runner place stack (names ++ more) x z := by
  obtain ⟨own', hown', tour⟩ := h
  refine ⟨own' ++ own, ?_, ?_⟩
  · rw [List.map_append]
    exact hown'.append hown
  · cases tour with
    | alone shoots' => exact .alone (shoots'.trans shoots)
    | plays before ran kept after => exact .plays before ran kept (after.trans shoots)

theorem still (h : Toured stage runner place stack names x y) (shoots : stage.Shoots [] y z) :
    Toured stage runner place stack names x z := by
  have nothing : (List.map Picture.name []).Sublist [] := List.nil_sublist _
  have further := h.further nothing shoots
  rwa [List.append_nil] at further

theorem of_detour {c c' : Clock} (h : Detour (stage.Shoots []) runner place stack (c, x) (c', y)) :
    Toured stage runner place stack names x y := by
  cases h with
  | own onward => exact ⟨[], List.nil_sublist _, .alone onward.goes⟩
  | plays before ran kept after => exact ⟨[], List.nil_sublist _, .plays before.goes ran kept after.goes⟩

end Toured

/-- Without a picture a deed is done in the same way whatever becomes of pictures. -/
theorem deed_quiet {deed : Deed} (other : deed ≠ .screenshot) (stage : Stage σ) (runner : Runner σ)
    (place : Place) (stack : CallStack) (stem : String) (timeout : Nat) :
    Perform.deed { stage with sink := stage.sink.quiet } runner place stack stem timeout deed =
      Perform.deed stage runner place stack stem timeout deed := by
  cases deed with
  | screenshot => exact absurd rfl other
  | _ => rfl

theorem leads_attempt_toured (stage : Stage σ) (runner : Runner σ) (place : Place) (stack : CallStack)
    (stem : String) (step : Step) :
    Timed.Leads (fun x y => Toured stage runner place stack (namesOf step stem) x.2 y.2)
      (attempt stage runner place stack stem step) := by
  have respects := respects_shoots stage place
  by_cases instruction : step.instruction = .screenshot
  · refine (leads_attempt_of (R := Shot stage [stem ++ ".png"]) stage.sink.quiet respects .of_onward .since
      fun {d scope task} made => ?_).mono fun x y h => ?_
    · rw [Bench.deed_of_screenshot made instruction]
      exact leads_screenshot stage runner place stack stem _
    · rw [namesOf, if_pos instruction]
      exact .of_shot h
  · refine (leads_attempt_of (R := Detour (stage.Shoots []) runner place stack) stage.sink.quiet respects .own
        (.since respects)
      fun {d scope task} made => ?_).mono fun x y h => .of_detour h
    have other : task.deed ≠ .screenshot :=
      fun hdeed => instruction (Bench.instruction_of_screenshot made hdeed)
    rw [← deed_quiet other]
    exact leads_deed respects (fun hdeed => absurd hdeed other) stem _

/-- The names that a step has for its pictures. -/
def names (number : Nat) (action : Action) : List String :=
  [stem number action ++ ".png", stem number action ++ "_error.png"]

theorem named_of_mem {number : Nat} {action : Action} {name : String} (h : name ∈ names number action) :
    Named number action name := by
  rcases List.mem_cons.mp h with rfl | h
  · exact .shot
  · rw [List.mem_singleton.mp h]
    exact .error

theorem nodup_names (number : Nat) (action : Action) : (names number action).Nodup := by
  rw [names, List.nodup_cons, List.mem_singleton]
  exact ⟨shot_ne_error _, List.nodup_singleton _⟩

/-- After a picture that was asked for, none of a success is taken. -/
theorem namesOf_append_namesAfter (step : Step) (number : Nat) :
    (namesOf step (stem number step.action) ++ namesAfter step.action (stem number step.action)).Sublist
      (names number step.action) := by
  unfold namesOf namesAfter
  split
  · rename_i instruction
    have action : step.action = .screenshot := by
      rw [Step.action, instruction]
      rfl
    rw [action]
    exact List.Sublist.refl _
  · split
    · exact List.Sublist.refl _
    · exact .cons _ (.refl _)

section

variable {J : World σ × Trace → Prop} (still : ∀ {y z}, J y → stage.Shoots [] y z → J z)

include still

theorem undisturbed_of_still (t : Trace) : Undisturbed fun s => J (s, t) :=
  ⟨fun _ h => still h (.of_passes (.of_eq rfl rfl rfl)), fun _ h => still h (.of_passes (.of_eq rfl rfl rfl))⟩

theorem maintains_note_of_still (place : Place) (line : String) :
    Maintains J Whatever (stage.note place line) := by
  rintro w c ⟨s, t⟩ h
  rw [stage.note_apply]
  exact ⟨.refl c, still h ⟨.note place line _ s, rfl, .inl rfl⟩, trivial⟩

end

/-- After an attempt at a step and the picture that goes with its end, the step is on a tour with pictures
under its own names, whatever it does then. -/
theorem brings_captured {α : Type} {number : Nat} {w : Watch} {x : World σ × Trace}
    {I : World σ × Trace → Prop} {rest : Except Failure Unit → Timed (World σ × Trace) α}
    (since : ∀ y, I y → stage.Shoots [] x y)
    (later : ∀ r, Timed.Brings w (Toured stage runner place stack (names number step.action) x)
      (fun _ => Toured stage runner place stack (names number step.action) x)
      (Toured stage runner place stack (names number step.action) x) (rest r)) :
    Timed.Brings w I (fun _ => Toured stage runner place stack (names number step.action) x)
      (Toured stage runner place stack (names number step.action) x)
      (attempt stage runner place stack (stem number step.action) step >>= fun r =>
        captureAfter stage step.action (stem number step.action) r >>= fun _ => rest r) := by
  have within := namesOf_append_namesAfter step number
  generalize names number step.action = all at within later ⊢
  generalize stem number step.action = stem at within ⊢
  have first : ∀ {y}, Toured stage runner place stack (namesOf step stem) x y →
      Toured stage runner place stack all x y := by
    rintro y ⟨own, hown, tour⟩
    exact ⟨own, hown.trans ((List.sublist_append_left ..).trans within), tour⟩
  have attempted := (leads_attempt_toured stage runner place stack stem step).brings (w := w)
    (I := stage.Shoots [] x) fun shoots tour => tour.since shoots
  refine .bind (attempted.mono since (fun _ _ h => h) fun _ => first) fun r => ?_
  refine .bind ((leads_captureAfter stage step.action stem r).brings fun tour ⟨own, hown, shoots⟩ =>
    ?_) fun _ => later r
  obtain ⟨own', hown', tour⟩ := tour.further hown shoots
  exact ⟨own', hown'.trans within, tour⟩

/-- However a step ends, it was on a tour with pictures under its own names, and if it has come to an outcome
this goes back to the trace of the tour. -/
theorem brings_step_toured (stage : Stage σ) (runner : Runner σ) (place : Place) (stack : CallStack)
    (step : Step) (w : Watch) (s : World σ) :
    Timed.Brings w (· = s)
      (fun a s' => ∃ trace failure millis requests,
        Toured stage runner place stack (names (s.begun + 1) step.action) (s.counted, .empty) (s', trace) ∧
        a = (trace.outcome place step failure millis requests, failure))
      (fun s' => ∃ trace,
        Toured stage runner place stack (names (s.begun + 1) step.action) (s.counted, .empty) (s', trace))
      (Play.step stage runner place stack step) := by
  rintro c s rfl
  unfold Play.step
  rw [Timed.bind_of_done (Timed.now_apply ..), Timed.bind_of_done (Timed.begin_apply ..)]
  rw [show ({ s with begun := s.begun + 1 } : World σ) = s.counted from rfl]
  generalize s.counted = b
  have before : ∀ {y z}, stage.Shoots [] (b, .empty) y → stage.Shoots [] y z → stage.Shoots [] (b, .empty) z :=
    fun h h' => h.trans h'
  have still : ∀ {y z}, Toured stage runner place stack (names (s.begun + 1) step.action) (b, .empty) y →
      stage.Shoots [] y z → Toured stage runner place stack (names (s.begun + 1) step.action) (b, .empty) z :=
    fun h shoots => h.still shoots
  have calls := maintains_call (undisturbed_of_still before .empty) stage.browser.takeRequests
  refine Timed.Brings.alongBind calls (fun s' shoots => ⟨.empty, [], List.nil_sublist _, .alone shoots⟩)
    (fun _ => ?_) c _ (.refl _)
  refine .bind (.withOwn (brings_captured ?_ fun r => ?_)) fun a => ?_
  · rintro ⟨s', t⟩ ⟨shoots, rfl⟩
    exact shoots
  · refine .alongBind (.onFirst fun t => maintains_call (undisturbed_of_still still t) _) (fun _ h => h)
      fun requests => ?_
    cases r with
    | ok u => exact .pure fun _ h => h
    | error e =>
      refine .alongBind (maintains_note_of_still still place _) (fun _ h => h) fun _ => ?_
      exact .pure fun _ h => h
  · rintro c' s' toured
    exact ⟨a.2, a.1.1, c'.now - c.now, a.1.2, toured, rfl⟩

/-- However a turn ends, it was that of the next step to be numbered. -/
theorem brings_turn_toured (stage : Stage σ) (runner : Runner σ) (place : Place) (stack : CallStack)
    (step : Step) (w : Watch) (s : World σ) :
    Timed.Brings w (· = s)
      (fun a s' => ∃ b trace millis requests,
        Toured stage runner place stack (names (s.begun + 1) step.action) (stage.opens place step s, .empty)
          (b, trace) ∧
        a.1 = trace.outcome place step a.2 millis requests ∧
        s' = stage.closes ⟨place, stack, step, a.1, a.2⟩ b)
      (fun s' => ∃ trace,
        Toured stage runner place stack (names (s.begun + 1) step.action) (stage.opens place step s, .empty)
          (s', trace))
      (turn stage runner place stack step) := by
  rintro c s rfl
  unfold turn
  rw [Timed.bind_of_done (Timed.say_apply ..), Timed.bind_of_done (stage.tell_apply ..)]
  have steps := brings_step_toured stage runner place stack step w
    (stage.heard (.stepStarted place.scenario place.depth place.index step.action step.name)
      (s.say [Narration.stepStart place step]))
  rw [stage.begun_heard] at steps
  refine Timed.Brings.bind steps (fun a => ?_) c _ rfl
  rintro c' s' ⟨trace, failure, millis, requests, toured, rfl⟩
  simp only
  rw [Timed.bind_of_done (Timed.say_apply ..), Timed.bind_of_done (stage.tell_apply ..)]
  exact ⟨s', trace, millis, requests, toured, rfl, rfl⟩

end Play

end Rehearsal
