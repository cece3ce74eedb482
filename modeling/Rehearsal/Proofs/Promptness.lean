import Rehearsal.Proofs.Asking
import Rehearsal.Proofs.Fatality
import Rehearsal.Proofs.LikePlay
import Rehearsal.Proofs.Lingering

/-! # How a run ends after its cancellation

What a step does is given up as soon as the run is cancelled, and so is all that is played inside it.
What is done around it is not: the pictures of a step of the run itself, taking the requests of the page
and ending the recording are waited for.
-/
namespace Rehearsal

open Timed (AtOnce Both Brief Follows Lingers Maintains Never Whatever)

variable {σ α : Type} {stage : Stage σ} {asked : σ → List (Nat × Asking)} {t : Nat}

/-- What a run may still do after its cancellation: no step begins, so many pictures at most are asked
for and nothing else but the end of the recording, and so many steps at most end, none of them inside
another. -/
structure World.Subsides (asked : σ → List (Nat × Asking)) (pictures ends : Nat) (s s' : World σ) :
    Prop where
  begun : s'.begun = s.begun
  events : ∃ more, s'.events = s.events ++ more ∧ ∀ e ∈ more, ¬ e.Starts
  asked : ∃ more, asked s'.page = asked s.page ++ more ∧
    (more.filter (·.2.isPicture)).length ≤ pictures ∧
    ∀ a ∈ more, a.2.isPicture = true ∨ a.2 = .finishRecording
  turns : ∃ more, s'.turns = s.turns ++ more ∧ more.length ≤ ends ∧ ∀ u ∈ more, u.place.depth = 0

namespace World.Subsides

variable {pictures pictures' ends ends' : Nat} {s s' s'' : World σ}

theorem same (begun : s'.begun = s.begun) (events : s'.events = s.events)
    (asked_eq : asked s'.page = asked s.page) (turns : s'.turns = s.turns) :
    s.Subsides asked 0 0 s' :=
  ⟨begun, ⟨[], by simp [events]⟩, ⟨[], by simp [asked_eq]⟩, ⟨[], by simp [turns]⟩⟩

theorem refl (s : World σ) : s.Subsides asked 0 0 s := same rfl rfl rfl rfl

theorem trans (h : s.Subsides asked pictures ends s') (h' : s'.Subsides asked pictures' ends' s'') :
    s.Subsides asked (pictures + pictures') (ends + ends') s'' := by
  obtain ⟨es, hes, quiet⟩ := h.events
  obtain ⟨es', hes', quiet'⟩ := h'.events
  obtain ⟨more, hmore, hfew, hkind⟩ := h.asked
  obtain ⟨more', hmore', hfew', hkind'⟩ := h'.asked
  obtain ⟨new, hnew, hlength, hdepth⟩ := h.turns
  obtain ⟨new', hnew', hlength', hdepth'⟩ := h'.turns
  refine ⟨h'.begun.trans h.begun, ⟨es ++ es', ?_, List.forall_mem_append.mpr ⟨quiet, quiet'⟩⟩,
    ⟨more ++ more', ?_, ?_, List.forall_mem_append.mpr ⟨hkind, hkind'⟩⟩,
    ⟨new ++ new', ?_, ?_, List.forall_mem_append.mpr ⟨hdepth, hdepth'⟩⟩⟩
  · rw [hes', hes, List.append_assoc]
  · rw [hmore', hmore, List.append_assoc]
  · rw [List.filter_append, List.length_append]
    exact Nat.add_le_add hfew hfew'
  · rw [hnew', hnew, List.append_assoc]
  · rw [List.length_append]
    exact Nat.add_le_add hlength hlength'

theorem mono (h : s.Subsides asked pictures ends s') (hpictures : pictures ≤ pictures')
    (hends : ends ≤ ends') : s.Subsides asked pictures' ends' s' := by
  obtain ⟨more, hmore, hfew, hkind⟩ := h.asked
  obtain ⟨new, hnew, hlength, hdepth⟩ := h.turns
  exact ⟨h.begun, h.events, ⟨more, hmore, hfew.trans hpictures, hkind⟩,
    ⟨new, hnew, hlength.trans hends, hdepth⟩⟩

theorem andNothing (s s' s'' : World σ) (h : s.Subsides asked pictures ends s')
    (h' : s'.Subsides asked 0 0 s'') : s.Subsides asked pictures ends s'' := h.trans h'

theorem afterNothing (s s' s'' : World σ) (h : s.Subsides asked 0 0 s')
    (h' : s'.Subsides asked pictures ends s'') : s.Subsides asked pictures ends s'' :=
  (h.trans h').mono (Nat.zero_add _).le (Nat.zero_add _).le

theorem heard (stage : Stage σ) {e : Event} (h : ¬ e.Starts) (s : World σ) :
    s.Subsides asked 0 0 (stage.heard e s) := by
  refine ⟨stage.begun_heard .., ⟨_, stage.events_heard .., Stage.not_starts_of_told h⟩, ⟨[], ?_⟩, ⟨[], ?_⟩⟩
  · simp
  · simp

end World.Subsides

/-- Such a call was under way at `t`. -/
def Call.InFlight (call : Call σ α) (t : Nat) (c : Clock) (s : World σ) : Prop :=
  ∃ c₀ s₀, call.run ⟨false, some t⟩ c₀ s₀ = (.expired, c, s)

theorem Call.InFlight.not_atOnce {call : Call σ α} {c : Clock} {s : World σ} {P : α → Prop}
    (h : call.InFlight t c s) : ¬ AtOnce P call.run := by
  intro hquick
  obtain ⟨c₀, s₀, hran⟩ := h
  obtain ⟨a, s', hdone, -⟩ := hquick c₀ s₀
  rw [hdone] at hran
  cases hran

/-- What of a step is waited for although the run is cancelled. -/
inductive Wait where
  | requestsBefore
  | picture
  | requestsAfter

/-- A step that the cancellation finds before its beginning may fail for another reason, of which a
picture is taken. -/
def Wait.pictures : Wait → Nat
  | requestsBefore => 1
  | _ => 0

/-- What the browser was doing at `t`. -/
def Stage.Waits (stage : Stage σ) (t : Nat) (c : Clock) (s : World σ) : Wait → Prop
  | .requestsBefore | .requestsAfter => stage.browser.takeRequests.InFlight t c s
  | .picture => (stage.browser.screenshot true).InFlight t c s

/-- The run goes on at `t`, and comes to its end with little more. -/
def Stage.Trails (stage : Stage σ) (asked : σ → List (Nat × Asking)) (t ends : Nat) (c : Clock)
    (s s' : World σ) : Prop :=
  ∃ wait, stage.Waits t c s wait ∧ s.Subsides asked wait.pictures ends s'

theorem Stage.Trails.andNothing {ends : Nat} (c : Clock) (s s' s'' : World σ)
    (h : stage.Trails asked t ends c s s') (h' : s'.Subsides asked 0 0 s'') :
    stage.Trails asked t ends c s s'' := by
  obtain ⟨wait, hwaits, hrest⟩ := h
  exact ⟨wait, hwaits, hrest.trans h'⟩

/-- Only the page and the log can be different after a call. -/
theorem Call.keeps_run (call : Call σ α) (w : Watch) (c : Clock) (s : World σ) :
    (call.run w c s).2.2.begun = s.begun ∧ (call.run w c s).2.2.events = s.events ∧
      (call.run w c s).2.2.turns = s.turns := by
  have h := maintains_call (I := fun s' => s'.begun = s.begun ∧ s'.events = s.events ∧
    s'.turns = s.turns) ⟨fun _ h => h, fun _ h => h⟩ call
  generalize hran : call.run w c s = r
  obtain ⟨e, c', s'⟩ := r
  exact h.holds ⟨rfl, rfl, rfl⟩ hran

theorem Call.ends (call : Call σ α) (c : Clock) (s : World σ) :
    ∃ a c' s', call.run .none c s = (.done a, c', s') ∧ c.Before c' := by
  have h := maintains_call (I := fun _ : World σ => True) ⟨fun _ _ => trivial, fun _ _ => trivial⟩ call
  obtain ⟨a, c', s', hdone, -⟩ := h.done c (s := s) trivial
  exact ⟨a, c', s', hdone, h.before trivial hdone⟩

/-- A call is waited for, and does nothing besides. -/
theorem lingers_call (call : Call σ α)
    (lasting : ∀ w w' c s, asked (call.run w c s).2.2.page = asked (call.run w' c s).2.2.page) :
    Lingers t (fun c s s' => call.InFlight t c s ∧ s.Subsides asked 0 0 s') call.run := by
  have hlingers : Lingers t (fun _ _ _ => True) call.run := by
    clear lasting
    induction call with
    | done a => exact .of_atOnce (.pure (P := Whatever) trivial)
    | look next ih => exact fun c s => ih c.now s.page c s
    | save page next ih => exact fun c s => ih c { s with page }
    | pause millis next ih =>
      refine .bind (B := fun _ _ => True) (.pause millis) (fun _ => ih) (fun _ => ?_)
        fun _ _ _ _ _ _ => trivial
      intro c s hc
      obtain ⟨a, c', s', hdone, before⟩ := next.ends c s
      exact ⟨a, c', s', hdone, before.isCancelled hc, trivial⟩
    | cancel next ih => exact fun c s => ih c.stop s
    | note line next ih => exact fun c s => ih c (s.say [line])
  refine hlingers.along.mono ?_
  rintro c₁ s₁ s₂ ⟨c, s, a, c₂, hcut, hdone⟩
  refine ⟨⟨c, s, hcut⟩, ?_⟩
  obtain ⟨hbegun, hevents, hturns⟩ := call.keeps_run ⟨false, some t⟩ c s
  obtain ⟨hbegun', hevents', hturns'⟩ := call.keeps_run .none c s
  have hasked := lasting ⟨false, some t⟩ .none c s
  rw [hcut] at hbegun hevents hturns hasked
  rw [hdone] at hbegun' hevents' hturns' hasked
  exact .same (hbegun'.trans hbegun.symm) (hevents'.trans hevents.symm) hasked.symm
    (hturns'.trans hturns.symm)

/-- What a call adds to what was asked for, after a cancellation. -/
theorem brief_call {call : Call σ α} {pictures : Nat} (adds : ∀ c s, ∃ more,
    asked (call.run .none c s).2.2.page = asked s.page ++ more ∧
      (more.filter (·.2.isPicture)).length ≤ pictures ∧
      ∀ a ∈ more, a.2.isPicture = true ∨ a.2 = .finishRecording) :
    Brief (World.Subsides asked pictures 0) call.run := by
  intro c s hc
  obtain ⟨a, c', s', hdone, before⟩ := call.ends c s
  obtain ⟨hbegun, hevents, hturns⟩ := call.keeps_run .none c s
  have hasked := adds c s
  rw [hdone] at hbegun hevents hturns hasked
  refine ⟨a, c', s', hdone, before.isCancelled hc, hbegun, ⟨[], ?_, by simp⟩, hasked,
    ⟨[], ?_, by simp, by simp⟩⟩
  · rw [List.append_nil]
    exact hevents
  · rw [List.append_nil]
    exact hturns

/-- What is done by a step alone, with its trace. -/
def Aside (R : World σ → World σ → Prop) (x y : World σ × Trace) : Prop := R x.1 y.1

theorem Aside.trans {pictures ends : Nat} (x y z : World σ × Trace)
    (h : Aside (World.Subsides asked pictures ends) x y) (h' : Aside (World.Subsides asked 0 0) y z) :
    Aside (World.Subsides asked pictures ends) x z := World.Subsides.trans h h'

theorem brief_say (lines : List LogLine) : Brief (World.Subsides asked 0 0) (Timed.say lines) :=
  fun c s hc => ⟨(), c, s.say lines, rfl, hc, .same rfl rfl rfl rfl⟩

theorem brief_tell {e : Event} (h : ¬ e.Starts) :
    Brief (World.Subsides asked 0 0) (stage.tell e) := by
  intro c s hc
  exact ⟨(), c, _, stage.tell_apply .., hc, .heard stage h s⟩

theorem brief_note (place : Place) (line : String) :
    Brief (Aside (World.Subsides asked 0 0)) (stage.note place line) := by
  rintro c ⟨s, u⟩ hc
  have hsaid : s.Subsides asked 0 0 (s.say [.debug (place.text ++ " " ++ line)]) :=
    .same rfl rfl rfl rfl
  exact ⟨(), c, _, stage.note_apply .., hc, hsaid.trans (.heard stage id _)⟩

theorem atOnce_tell (e : Event) : AtOnce Whatever (stage.tell e) :=
  fun _ _ => ⟨(), _, fun _ => stage.tell_apply .., trivial⟩

theorem atOnce_note (place : Place) (line : String) : AtOnce Whatever (stage.note place line) := by
  rintro c ⟨s, u⟩
  exact ⟨(), _, fun w => stage.note_apply .., trivial⟩

namespace Play

/-- Playing goes on in a world only by what it finds there. -/
theorem reports_nested (d : Desk) (n : Nat) (id : String) (stack : CallStack) (depth : Nat) :
    (Likeness.equal stage d).Reports (nested stage n id stack depth)
      (nested stage n id stack depth) := by
  induction n generalizing id stack depth with
  | zero => exact .pure rfl
  | succ n ih =>
    exact follows_enter (stage.admits_equal d) (List.Subset.refl _) (.inl rfl) .rfl
      fun _ _ _ _ _ _ _ _ => ⟨trivial, fun other _ => ih other _ _⟩

theorem reports_runner (d : Desk) (id : String) (stack : CallStack) (depth : Nat) :
    (Likeness.equal stage d).Reports (runner stage id stack depth) (runner stage id stack depth) := by
  rintro w v hw c s _ ⟨rfl, hs⟩
  exact reports_nested d (depthLimit stage s.desk) id stack depth w v hw c s s ⟨rfl, hs⟩

variable {runner : Runner σ} {place : Place} {stack : CallStack}

/-- Before a cancelled step is begun it may fail for its own reasons. -/
theorem brief_attempt (stem : String) (step : Step) :
    Brief (Aside (World.Subsides asked 0 0)) (attempt stage runner place stack stem step) := by
  have hsay : ∀ lines : List LogLine, Brief (Aside (World.Subsides asked 0 0))
      (Timed.onFirst (Timed.say lines : Timed (World σ) Unit) : Timed (World σ × Trace) Unit) :=
    fun lines => (brief_say lines).onFirst
  have hread : ∀ {β : Type} (f : World σ → β), Brief (Aside (World.Subsides asked 0 0))
      (Timed.onFirst fun _ c s => (.done (f s), c, s) : Timed (World σ × Trace) β) :=
    fun f => Brief.onFirst (.act fun _ s => .refl s)
  unfold attempt
  refine .bind (hread World.desk) (fun desk => ?_) Aside.trans
  refine .bind (hread World.scope) (fun scope => ?_) Aside.trans
  refine .bind (hsay _) (fun _ => ?_) Aside.trans
  split
  · exact .pure fun s => .refl s.1
  · refine .bind (.forIn (fun name _ => ?_) (fun s => .refl s.1) Aside.trans) (fun _ => ?_) Aside.trans
    · refine .bind (hsay _) (fun _ => ?_) Aside.trans
      exact .bind (brief_note _ _) (fun _ => .pure fun s => .refl s.1) Aside.trans
    · refine .bind (.untilCancelled (fun s => .refl s.1) _) (fun r => ?_) Aside.trans
      split
      · exact .pure fun s => .refl s.1
      · exact .pure fun s => .refl s.1

/-- A deed follows itself, whoever watches. -/
theorem follows_deed {stem : String} (hstem : IsStem stem) (task : Task)
    (reports : ∀ d id, task.deed.reference? = some id →
      (Likeness.equal stage d).Reports (runner id stack place.depth) (runner id stack place.depth)) :
    Follows Eq Eq Never (guarded task (Perform.deed stage runner place stack stem task.timeout task.deed).run)
      (guarded task (Perform.deed stage runner place stack stem task.timeout task.deed).run) := by
  have hdeed : ∀ d, Follows (Both (Likeness.equal stage d).world (Likeness.equal stage d).Trace) Eq Never
      (guarded task (Perform.deed stage runner place stack stem task.timeout task.deed).run)
      (guarded task (Perform.deed stage runner place stack stem task.timeout task.deed).run) := by
    intro d
    have halike : Work.Alike (Likeness.equal stage d) Eq
        (Perform.deed stage runner place stack stem task.timeout task.deed)
        (Perform.deed stage runner place stack stem task.timeout task.deed) :=
      Perform.alike_deed (stage.admits_equal d) .rfl (reports d)
        (fun path _ s t hst => by rw [hst.1]; exact ⟨rfl, rfl⟩) task.timeout
        fun _ => (stage.shows_equal d).shot .rfl hstem hstem .rfl _ _ _ _ _
    refine (follows_guarded halike task).mono (fun _ _ => Likewise.eq) ?_
    rintro (e | a) h
    · exact h
    · exact h
  refine .of_each hdeed ?_ ?_
  · rintro ⟨s, u⟩ _ rfl
    exact ⟨s.desk, ⟨rfl, .refl⟩, .refl u⟩
  · rintro d ⟨s, u⟩ ⟨s', u'⟩ ⟨⟨hs, -⟩, hu⟩
    exact Prod.ext hs hu.eq

/-- Nothing that a step does is found going on after a cancellation. -/
theorem lingers_attempt {stem : String} (hstem : IsStem stem) {step : Step}
    (reports : ∀ d id, step.instruction.reference? = some id →
      (Likeness.equal stage d).Reports (runner id stack place.depth) (runner id stack place.depth)) :
    Lingers t (fun _ _ _ => False) (attempt stage runner place stack stem step) := by
  unfold attempt
  refine .andThen (.of_atOnce (AtOnce.onFirst (.act (P := Whatever) fun _ _ => trivial))) fun desk => ?_
  refine .andThen (.of_atOnce (AtOnce.onFirst (.act (P := Whatever) fun _ _ => trivial))) fun scope => ?_
  refine .andThen (.of_atOnce (AtOnce.onFirst (.modify _))) fun _ => ?_
  split
  · exact .pure
  · rename_i task htask
    refine .andThen (.of_atOnce (.forIn fun name _ => ?_)) fun _ => ?_
    · refine .bind (P := Whatever) (AtOnce.onFirst (.modify _)) fun _ _ => ?_
      exact .bind (P := Whatever) (atOnce_note _ _) fun _ _ => .pure trivial
    · refine .andThen (.untilCancelled ?_) fun r => ?_
      · exact follows_deed hstem task fun d id hid =>
          reports d id (Bench.reference?_of_task htask ▸ hid)
      · split
        · exact .pure
        · exact .pure

/-- What becomes of a picture that was asked for. -/
def keep (stage : Stage σ) (name : String) : Answer Disk.Bytes → Timed (World σ × Trace) Unit
  | .error fault => Timed.onFirst (Timed.say [.warn ("⚠️ 截图失败: " ++ fault.message)])
  | .ok png => do
    match ← (Work.storeScreenshot stage name png).run with
    | .ok stored => Timed.modifySecond fun t => { t with screenshot := some stored }
    | .error e => Timed.onFirst (Timed.say [.warn ("⚠️ 截图保存失败: " ++ e.message)])

theorem atOnce_keep (name : String) (r : Answer Disk.Bytes) : AtOnce Whatever (keep stage name r) := by
  cases r with
  | error fault =>
    unfold keep
    exact AtOnce.onFirst (.modify _)
  | ok png =>
    refine .bind (P := Whatever) (fun c s => ⟨_, _, fun w => rfl, trivial⟩) fun r _ => ?_
    cases r with
    | ok stored => exact .modify _
    | error e => exact AtOnce.onFirst (.modify _)

theorem brief_keep (name : String) (r : Answer Disk.Bytes) :
    Brief (Aside (World.Subsides asked 0 0)) (keep stage name r) := by
  cases r with
  | error fault => exact (brief_say _).onFirst
  | ok png =>
    refine .bind (R := Aside (World.Subsides asked 0 0))
      (fun c s hc => ⟨_, c, _, rfl, hc, .same rfl rfl rfl rfl⟩) (fun r => ?_) Aside.trans
    cases r with
    | ok stored => exact fun c s hc => ⟨(), c, _, rfl, hc, .refl s.1⟩
    | error e => exact (brief_say _).onFirst

section

variable (records : stage.browser.Records asked)

include records

theorem lingers_takeRequests :
    Lingers t (fun c s s' => stage.browser.takeRequests.InFlight t c s ∧ s.Subsides asked 0 0 s')
      stage.browser.takeRequests.run :=
  lingers_call _ fun w w' c s => by rw [records.taken, records.taken]

theorem lingers_served {asking : Asking} {call : Call σ α} (serves : stage.browser.Serves asking call) :
    Lingers t (fun c s s' => call.InFlight t c s ∧ s.Subsides asked 0 0 s') call.run :=
  lingers_call _ fun w w' c s => by rw [records.served serves, records.served serves]

theorem brief_takeRequests : Brief (World.Subsides asked 0 0) stage.browser.takeRequests.run :=
  brief_call fun c s => ⟨[], by rw [records.taken, List.append_nil], Nat.le_refl _, nofun⟩

theorem lingers_capture (name : String) :
    Lingers t (fun c y y' => stage.Trails asked t 0 c y.1 y'.1) (capture stage name) := by
  refine .bind (B := Aside (World.Subsides asked 0 0)) (lingers_served records (.screenshot true)).onFirst
    (fun r => .of_atOnce (atOnce_keep name r)) (brief_keep name) ?_
  rintro c s s' s'' ⟨hflight, hrest⟩ hkept
  exact ⟨.picture, hflight, hrest.trans hkept⟩

theorem brief_capture (name : String) :
    Brief (Aside (World.Subsides asked 1 0)) (capture stage name) := by
  have hcall : Brief (World.Subsides asked 1 0) (stage.browser.screenshot true).run :=
    brief_call fun c s => ⟨[(c.now, .screenshot true)], records.served (.screenshot true) .., Nat.le_refl 1,
      by simp [Asking.isPicture]⟩
  exact .bind hcall.onFirst (brief_keep name) Aside.trans

theorem lingers_captureAfter (action : Action) (stem : String) (r : Except Failure Unit) :
    Lingers t (fun c y y' => stage.Trails asked t 0 c y.1 y'.1) (captureAfter stage action stem r) := by
  unfold captureAfter
  split
  · split
    · exact lingers_capture records _
    · exact .pure
  · split
    · exact .pure
    · exact lingers_capture records _

theorem brief_captureAfter (action : Action) (stem : String) (r : Except Failure Unit) :
    Brief (Aside (World.Subsides asked 1 0)) (captureAfter stage action stem r) := by
  have hnothing : Brief (Aside (World.Subsides asked 1 0)) (pure () : Timed (World σ × Trace) Unit) :=
    .pure fun s => (World.Subsides.refl s.1).mono (Nat.zero_le 1) (Nat.le_refl 0)
  unfold captureAfter
  split
  · split
    · exact brief_capture records _
    · exact hnothing
  · split
    · exact hnothing
    · exact brief_capture records _

/-- The end of a step: the requests are taken, and its failure is noted. -/
def closing (stage : Stage σ) (place : Place) (r : Except Failure Unit) :
    Timed (World σ × Trace) (Option Failure × List NetworkRequest) := do
  let requests ← Timed.onFirst stage.browser.takeRequests.run
  match r with
  | .ok _ => return (none, requests)
  | .error e => do
    stage.note place ("❌ " ++ e.message)
    return (some e, requests)

theorem lingers_closing (place : Place) (r : Except Failure Unit) :
    Lingers t (fun c y y' => stage.Trails asked t 0 c y.1 y'.1) (closing stage place r) := by
  unfold closing
  refine .bind (B := Aside (World.Subsides asked 0 0)) (lingers_takeRequests records).onFirst
    (fun requests => ?_) (fun requests => ?_) ?_
  · cases r with
    | ok u => exact .pure
    | error e => exact .andThen (.of_atOnce (atOnce_note _ _)) fun _ => .pure
  · cases r with
    | ok u => exact .pure fun s => .refl s.1
    | error e =>
      exact .bind (brief_note _ _) (fun _ => .pure fun s => .refl s.1) Aside.trans
  · rintro c s s' s'' ⟨hflight, hrest⟩ hnoted
    exact ⟨.requestsAfter, hflight, hrest.trans hnoted⟩

theorem brief_closing (place : Place) (r : Except Failure Unit) :
    Brief (Aside (World.Subsides asked 0 0)) (closing stage place r) := by
  unfold closing
  refine .bind (brief_takeRequests records).onFirst (fun requests => ?_) Aside.trans
  cases r with
  | ok u => exact .pure fun s => .refl s.1
  | error e =>
    exact .bind (brief_note _ _) (fun _ => .pure fun s => .refl s.1) Aside.trans

theorem lingers_step {step : Step}
    (reports : ∀ d id, step.instruction.reference? = some id →
      (Likeness.equal stage d).Reports (runner id stack place.depth) (runner id stack place.depth)) :
    Lingers t (stage.Trails asked t 0) (Play.step stage runner place stack step) := by
  unfold Play.step
  refine .andThen .act fun started => ?_
  refine .andThen .act fun number => ?_
  have hstem : IsStem (Play.stem number step.action) := ⟨_, _, rfl⟩
  refine .bind (B := World.Subsides asked 1 0) (lingers_takeRequests records) (fun _ => ?_)
    (fun _ => ?_) ?_
  · refine .bind (R := stage.Trails asked t 0) (B := World.Subsides asked 0 0) (.withOwn ?_)
      (fun _ => .andThen .act fun _ => .pure)
      (fun _ => .bind (.act fun _ s => .refl s) (fun _ => .pure fun s => .refl s) .andNothing)
      .andNothing
    refine .andThen (lingers_attempt hstem reports) fun r => ?_
    exact .bind (lingers_captureAfter records _ _ r) (fun _ => lingers_closing records place r)
      (fun _ => brief_closing records place r) fun c _ _ _ => .andNothing c _ _ _
  · refine .bind (R := World.Subsides asked 1 0) (.withOwn ?_)
      (fun _ => .bind (.act fun _ s => .refl s) (fun _ => .pure fun s => .refl s) .andNothing)
      .andNothing
    have hattempt : Brief (Aside (World.Subsides asked 0 0))
        (attempt stage runner place stack (Play.stem number step.action) step) := brief_attempt _ _
    refine .bind hattempt (fun r => ?_) fun _ _ _ => .afterNothing _ _ _
    exact .bind (brief_captureAfter records _ _ r) (fun _ => brief_closing records place r) Aside.trans
  · rintro c s s' s'' ⟨hflight, hrest⟩ hplayed
    exact ⟨.requestsBefore, hflight, hrest.trans hplayed⟩

theorem lingers_turn (top : place.depth = 0) {step : Step}
    (reports : ∀ d id, step.instruction.reference? = some id →
      (Likeness.equal stage d).Reports (runner id stack place.depth) (runner id stack place.depth)) :
    Lingers t (stage.Trails asked t 1) (turn stage runner place stack step) := by
  unfold turn
  refine .andThen (.of_atOnce (.modify _)) fun _ => ?_
  refine .andThen (.of_atOnce (atOnce_tell _)) fun _ => ?_
  refine .bind (B := World.Subsides asked 0 1) (lingers_step records reports) ?_ ?_ ?_
  · rintro ⟨outcome, failure⟩
    refine .andThen (.of_atOnce (.modify _)) fun _ => ?_
    refine .andThen (.of_atOnce (atOnce_tell _)) fun _ => ?_
    exact .andThen (.of_atOnce (.modify _)) fun _ => .pure
  · rintro ⟨outcome, failure⟩
    have hclose : ∀ u : Turn, u.place.depth = 0 →
        Brief (World.Subsides (σ := σ) asked 0 1) (Timed.modify (·.close u)) := by
      intro u hu c s hc
      exact ⟨(), c, _, rfl, hc, rfl, ⟨[], by simp [World.close]⟩, ⟨[], by simp [World.close]⟩,
        ⟨[u], rfl, Nat.le_refl 1, List.forall_mem_singleton.mpr hu⟩⟩
    have hsaid : ∀ lines, Brief (World.Subsides (σ := σ) asked 0 0) (Timed.say lines) := brief_say
    refine .bind (hsaid _) (fun _ => ?_) .afterNothing
    have htold : Brief (World.Subsides asked 0 0)
        (stage.tell (.stepEnded place.scenario place.depth outcome)) := brief_tell id
    refine .bind htold (fun _ => ?_) .afterNothing
    exact .bind (hclose _ top) (fun _ => .pure fun s => .refl s) .andNothing
  · rintro c s s' s'' ⟨wait, hwaits, hrest⟩ hended
    exact ⟨wait, hwaits, hrest.trans hended⟩

omit records in
/-- Of steps that are left when the run is cancelled none is played. -/
theorem brief_stepsFrom (id : String) (depth index : Nat) (steps : List Step) :
    Brief (World.Subsides asked 0 0) (stepsFrom stage runner id stack depth index steps) := by
  intro c s hc
  cases steps with
  | nil => exact ⟨_, c, s, rfl, hc, .refl s⟩
  | cons step rest =>
    refine ⟨.cancelledBefore index (step :: rest), c, s, ?_, hc, .refl s⟩
    show (Timed.isCancelled >>= _) Watch.none c s = _
    rw [Timed.bind_of_done (a := true) (by rw [Timed.isCancelled, hc])]
    rfl

theorem lingers_stepsFrom (id : String) (index : Nat) (steps : List Step)
    (reports : ∀ d, ∀ step ∈ steps, ∀ other, step.instruction.reference? = some other →
      (Likeness.equal stage d).Reports (runner other stack 0) (runner other stack 0)) :
    Lingers t (stage.Trails asked t 1) (stepsFrom stage runner id stack 0 index steps) := by
  induction steps generalizing index with
  | nil => exact .pure
  | cons step rest ih =>
    have hrest := ih (index + 1) fun d s hs => reports d s (List.mem_cons_of_mem _ hs)
    unfold stepsFrom
    refine .andThen .act fun cancelled => ?_
    cases cancelled with
    | true => exact .pure
    | false =>
      refine .bind (B := World.Subsides asked 0 0)
        (lingers_turn records rfl fun d => reports d step (List.mem_cons_self ..)) ?_ ?_ .andNothing
      · rintro ⟨outcome, failure⟩
        have hafter : ∀ failed, Lingers t (stage.Trails asked t 1) (do
            let report ← stepsFrom stage runner id stack 0 (index + 1) rest
            return report.after outcome failed) := by
          intro failed
          exact .bind hrest (fun _ => .pure) (fun _ => .pure World.Subsides.refl) .andNothing
        cases failure with
        | none => exact hafter false
        | some e =>
          simp only
          split
          · exact .pure
          split
          · exact .pure
          split
          · exact hafter step.counts
          · exact .pure
      · rintro ⟨outcome, failure⟩
        have hafter : ∀ failed, Brief (World.Subsides asked 0 0) (do
            let report ← stepsFrom stage runner id stack 0 (index + 1) rest
            return report.after outcome failed) := fun failed =>
          .bind (brief_stepsFrom id 0 (index + 1) rest) (fun _ => .pure fun s => .refl s) .andNothing
        have hnothing : ∀ report : Report,
            Brief (World.Subsides asked 0 0) (pure report : Timed (World σ) Report) :=
          fun _ => .pure fun s => .refl s
        cases failure with
        | none => exact hafter false
        | some e =>
          simp only
          split
          · exact hnothing _
          split
          · exact hnothing _
          split
          · exact hafter step.counts
          · exact hnothing _

end

end Play

namespace Run

open Play

theorem atOnce_store (record : RunRecord) : AtOnce Whatever (store stage record) := by
  unfold store
  refine .bind (P := Whatever) (.act fun _ _ => trivial) fun desk _ => ?_
  refine .bind (P := Whatever) (.modify _) fun _ _ => ?_
  split
  · exact .pure trivial
  · exact .modify _

theorem brief_store (record : RunRecord) : Brief (World.Subsides asked 0 0) (store stage record) := by
  intro c s hc
  obtain ⟨s', hstore, page, h⟩ := store_apply record .none c s
  exact ⟨(), c, s', hstore, hc, .same h.begun h.events (congrArg asked page) h.turns⟩

section

variable (records : stage.browser.Records asked)

include records

theorem lingers_perform (scenario : Scenario) :
    Lingers t (stage.Trails asked t 1) (perform stage scenario) := by
  unfold perform
  refine .andThen .act fun desk => ?_
  refine .andThen (.of_atOnce (.modify _)) fun _ => ?_
  split
  · exact .andThen (.of_atOnce (.modify _)) fun _ => .pure
  · refine .andThen (.of_atOnce (.modify _)) fun _ => ?_
    exact .bind (lingers_stepsFrom records scenario.id 0 scenario.steps
      fun d _ _ other _ => reports_runner d other _ 0) (fun _ => .pure)
      (fun _ => .pure World.Subsides.refl) .andNothing

theorem lingers_finishRecording :
    Lingers t (fun c s s' => stage.browser.finishRecording.InFlight t c s ∧ s.Subsides asked 0 0 s')
      (finishRecording stage) := by
  unfold finishRecording
  refine .bind (B := World.Subsides asked 0 0) (lingers_served records .finishRecording) (fun r => ?_)
    (fun r => ?_)
    fun _ _ _ _ h h' => ⟨h.1, h.2.trans h'⟩
  · split
    · exact .pure
    · exact .andThen (.of_atOnce (.modify _)) fun _ => .pure
  · split
    · exact .pure World.Subsides.refl
    · exact .bind (brief_say _) (fun _ => .pure World.Subsides.refl) .andNothing

theorem brief_finishRecording : Brief (World.Subsides asked 0 0) (finishRecording stage) := by
  have hcall : Brief (World.Subsides asked 0 0) stage.browser.finishRecording.run :=
    brief_call fun c s => ⟨[(c.now, .finishRecording)], records.served .finishRecording ..,
      Nat.le_refl 0, by simp⟩
  unfold finishRecording
  refine .bind hcall (fun r => ?_) .andNothing
  split
  · exact .pure World.Subsides.refl
  · exact .bind (brief_say _) (fun _ => .pure World.Subsides.refl) .andNothing

/-- The end of a run, once its recording has ended. -/
def record (stage : Stage σ) (scenario : Scenario) (runId : String) (started : Nat) (ending : Ending)
    (video : Option String) : Timed (World σ) RunRecord := do
  let ended ← Timed.now
  let record : RunRecord := ⟨runId, ending.status, scenario.id, some stage.settings.projectId,
    scenario.displayName, ending.steps, stage.epoch.later started, some (stage.epoch.later ended),
    ended - started, stage.sink.location, video, ending.error⟩
  store stage record
  Timed.say (Narration.runEnd record)
  stage.tell (.runCompleted record)
  return record

omit records in
theorem brief_record (scenario : Scenario) (runId : String) (started : Nat) (ending : Ending)
    (video : Option String) :
    Brief (World.Subsides asked 0 0) (record stage scenario runId started ending video) := by
  unfold record
  refine .bind (.act fun _ s => .refl s) (fun ended => ?_) .andNothing
  refine .bind (brief_store _) (fun _ => ?_) .andNothing
  refine .bind (brief_say _) (fun _ => ?_) .andNothing
  exact .bind (brief_tell id) (fun _ => .pure World.Subsides.refl) .andNothing

theorem lingers_conclude (scenario : Scenario) (runId : String) (started : Nat) (ending : Ending) :
    Lingers t (fun c s s' => stage.browser.finishRecording.InFlight t c s ∧ s.Subsides asked 0 0 s')
      (conclude stage scenario runId started ending) := by
  unfold conclude
  refine .bind (B := World.Subsides asked 0 0) (lingers_finishRecording records) (fun video => ?_)
    (brief_record scenario runId started ending) fun _ _ _ _ h h' => ⟨h.1, h.2.trans h'⟩
  refine .andThen .act fun ended => ?_
  refine .andThen (.of_atOnce (atOnce_store _)) fun _ => ?_
  refine .andThen (.of_atOnce (.modify _)) fun _ => ?_
  exact .andThen (.of_atOnce (atOnce_tell _)) fun _ => .pure

theorem brief_conclude (scenario : Scenario) (runId : String) (started : Nat) (ending : Ending) :
    Brief (World.Subsides asked 0 0) (conclude stage scenario runId started ending) :=
  .bind (brief_finishRecording records) (brief_record scenario runId started ending) .andNothing

/-- A run that is cancelled begins nothing more: no step at any depth, and of the calls to its browser
only the end of the recording, and the one picture of a step that the cancellation finds before its
beginning. But three calls are waited for when they are under way: taking the requests of a step that
is not inside another, a picture of one, and the end of the recording. Where these take no time, the
run is over at once. -/
theorem comes_to_rest (scenario : Scenario) (runId : String) (c : Clock) (s : World σ)
    {e : Exit RunRecord} {c₁ : Clock} {s₁ : World σ}
    (found : run stage scenario runId ⟨false, some t⟩ c s = (e, c₁, s₁))
    (cancelled : c₁.isCancelled = true) :
    ∃ record c₂ s₂, run stage scenario runId .none c s = (.done record, c₂, s₂) ∧
      c₁.now ≤ max c.now t ∧
      ((e = .done record ∧ c₂ = c₁ ∧ s₂ = s₁) ∨
        e = .expired ∧ ((∃ wait, stage.Waits t c₁ s₁ wait ∧ s₁.Subsides asked wait.pictures 1 s₂) ∨
          stage.browser.finishRecording.InFlight t c₁ s₁ ∧ s₁.Subsides asked 0 0 s₂)) ∧
      (AtOnce Whatever stage.browser.takeRequests.run →
        AtOnce Whatever (stage.browser.screenshot true).run →
        AtOnce Whatever stage.browser.finishRecording.run → e = .done record) := by
  have hrun : Lingers t (fun c s s' => stage.Trails asked t 1 c s s' ∨
      stage.browser.finishRecording.InFlight t c s ∧ s.Subsides asked 0 0 s')
      (run stage scenario runId) := by
    unfold run
    refine .andThen .act fun started => ?_
    refine .andThen (.of_atOnce (.modify _)) fun _ => ?_
    refine .andThen (.of_atOnce (atOnce_tell _)) fun _ => ?_
    refine .bind (lingers_perform records scenario)
      (fun ending => (lingers_conclude records scenario runId started ending).mono fun _ _ _ => .inr)
      (fun ending => brief_conclude records scenario runId started ending) ?_
    exact fun c s s' s'' h h' => .inl (h.andNothing c s s' s'' h')
  have hfound := hrun c s
  rw [found] at hfound
  cases e with
  | done record =>
    exact ⟨record, c₁, s₁, hfound.2, hfound.1, .inl ⟨rfl, rfl, rfl⟩, fun _ _ _ => rfl⟩
  | cancelled => exact hfound.elim
  | expired =>
    obtain ⟨hle, hgoes⟩ := hfound
    obtain ⟨record, c₂, s₂, hdone, -, hrest⟩ := hgoes cancelled
    refine ⟨record, c₂, s₂, hdone, hle, .inr ⟨rfl, hrest⟩, fun taking picture recording => ?_⟩
    rcases hrest with ⟨wait, hwaits, -⟩ | ⟨hflight, -⟩
    · cases wait with
      | requestsBefore => exact (hwaits.not_atOnce taking).elim
      | picture => exact (hwaits.not_atOnce picture).elim
      | requestsAfter => exact (hwaits.not_atOnce taking).elim
    · exact (hflight.not_atOnce recording).elim

end

end Run

/-- A browser whose pictures take a while. -/
def Browser.slow : Browser Unit :=
  { Browser.still with screenshot := fun _ => .pause 1000 (.done (.ok [])) }

def Stage.slow : Stage (Unit × List (Nat × Asking)) where
  toBench := (Stage.bare []).toBench
  browser := Browser.slow.recorded
  scenarios := .memory []
  sessions := .memory
  sink := .memory
  listening := false
  epoch := ⟨0, 0⟩

namespace Run

open Preflight (nowhere referring)

theorem comes_to_rest_slow :
    ∃ c₁ s₁ record c₂ s₂,
      run .slow (referring "r" ["gone"]) "1" ⟨false, some 50⟩ ⟨0, false, some 50⟩
        (.ofPage ((), []) nowhere) = (.expired, c₁, s₁) ∧ c₁.isCancelled = true ∧
      run .slow (referring "r" ["gone"]) "1" .none ⟨0, false, some 50⟩ (.ofPage ((), []) nowhere) =
        (.done record, c₂, s₂) ∧ c₂.now = 1000 ∧
      ((∃ wait, Stage.slow.Waits 50 c₁ s₁ wait ∧ s₁.Subsides Prod.snd wait.pictures 1 s₂) ∨
        Stage.slow.browser.finishRecording.InFlight 50 c₁ s₁ ∧ s₁.Subsides Prod.snd 0 0 s₂) := by
  have hcut : (run .slow (referring "r" ["gone"]) "1" ⟨false, some 50⟩ ⟨0, false, some 50⟩
      (.ofPage ((), []) nowhere)).1 = .expired ∧
      (run .slow (referring "r" ["gone"]) "1" ⟨false, some 50⟩ ⟨0, false, some 50⟩
        (.ofPage ((), []) nowhere)).2.1.isCancelled = true := by
    decide +kernel
  have hend : (run .slow (referring "r" ["gone"]) "1" .none ⟨0, false, some 50⟩
      (.ofPage ((), []) nowhere)).2.1.now = 1000 := by
    decide +kernel
  generalize hfound : run .slow (referring "r" ["gone"]) "1" ⟨false, some 50⟩ ⟨0, false, some 50⟩
    (.ofPage ((), []) nowhere) = found at hcut
  obtain ⟨e, c₁, s₁⟩ := found
  obtain ⟨rfl, cancelled⟩ := hcut
  have records : Stage.slow.browser.Records Prod.snd := Browser.slow.records_recorded
  obtain ⟨record, c₂, s₂, hdone, -, hrest, -⟩ :=
    comes_to_rest records (referring "r" ["gone"]) "1" ⟨0, false, some 50⟩ _ hfound cancelled
  rw [hdone] at hend
  refine ⟨c₁, s₁, record, c₂, s₂, rfl, cancelled, hdone, hend, ?_⟩
  rcases hrest with ⟨hover, -⟩ | ⟨-, hrest⟩
  · cases hover
  · exact hrest

/-- A picture that is being taken when the run is cancelled is waited for. -/
theorem not_prompt :
    ¬ ∀ (stage : Stage Unit) (scenario : Scenario) (t : Nat) (record : RunRecord) (c' : Clock)
      (s' : World Unit), stage.browser.finishRecording = .done (.ok none) →
      (run stage scenario "1").run ⟨0, false, some t⟩ (.ofPage () nowhere) = (some record, c', s') →
      c'.now ≤ t := by
  intro prompt
  have hend : ((run { Stage.bare [] with browser := .slow } (referring "r" ["gone"]) "1").run
      ⟨0, false, some 50⟩ (.ofPage () nowhere)).1.isSome = true ∧
      ((run { Stage.bare [] with browser := .slow } (referring "r" ["gone"]) "1").run
        ⟨0, false, some 50⟩ (.ofPage () nowhere)).2.1.now = 1000 := by
    decide +kernel
  generalize hrun : (run { Stage.bare [] with browser := .slow } (referring "r" ["gone"]) "1").run
    ⟨0, false, some 50⟩ (.ofPage () nowhere) = res at hend
  obtain ⟨_ | record, c', s'⟩ := res
  · cases hend.1
  · have hle := prompt _ _ _ _ _ _ rfl hrun
    have hnow : c'.now = 1000 := hend.2
    omega

end Run

end Rehearsal
