import Rehearsal.Proofs.Maintains
import Rehearsal.Run.Perform

/-! # What is maintained on a stage

What a step does by itself comes in a few small moves, each of which changes the world or the step's
trace at one place. An invariant that survives them all survives whatever the step does by itself. Which
failures a step may end with depends on those of the stores, the sink and the scenarios it has played.
-/
namespace Rehearsal

variable {σ α β : Type}

/-- The world after an event was told, if anyone listens. -/
def Stage.heard (stage : Stage σ) (e : Event) (s : World σ) : World σ :=
  if stage.listening then s.tell e else s

theorem Stage.tell_apply (stage : Stage σ) (e : Event) (w : Watch) (c : Clock) (s : World σ) :
    stage.tell e w c s = (.done (), c, stage.heard e s) := by
  unfold Stage.tell Stage.heard
  cases stage.listening with
  | true => rfl
  | false => rfl

@[simp] theorem Stage.page_heard (stage : Stage σ) (e : Event) (s : World σ) :
    (stage.heard e s).page = s.page := by
  unfold Stage.heard
  split <;> rfl

@[simp] theorem Stage.desk_heard (stage : Stage σ) (e : Event) (s : World σ) :
    (stage.heard e s).desk = s.desk := by
  unfold Stage.heard
  split <;> rfl

@[simp] theorem Stage.turns_heard (stage : Stage σ) (e : Event) (s : World σ) :
    (stage.heard e s).turns = s.turns := by
  unfold Stage.heard
  split <;> rfl

@[simp] theorem Stage.scope_heard (stage : Stage σ) (e : Event) (s : World σ) :
    (stage.heard e s).scope = s.scope := by
  unfold Stage.heard
  split <;> rfl

@[simp] theorem Stage.begun_heard (stage : Stage σ) (e : Event) (s : World σ) :
    (stage.heard e s).begun = s.begun := by
  unfold Stage.heard
  split <;> rfl

/-- The events that are told, if anyone listens. -/
def Stage.told (stage : Stage σ) (events : List Event) : List Event :=
  if stage.listening then events else []

theorem Stage.told_append (stage : Stage σ) (es es' : List Event) :
    stage.told (es ++ es') = stage.told es ++ stage.told es' := by
  unfold Stage.told
  split <;> rfl

@[simp] theorem Stage.told_nil (stage : Stage σ) : stage.told [] = [] := by
  unfold Stage.told
  split <;> rfl

theorem Stage.events_heard (stage : Stage σ) (e : Event) (s : World σ) :
    (stage.heard e s).events = s.events ++ stage.told [e] := by
  unfold Stage.heard Stage.told
  split
  · rfl
  · exact (List.append_nil _).symm

/-- A step's own lines as they are told. -/
def Place.logged (place : Place) (lines : List String) : List Event :=
  lines.map (.stepLog place.scenario place.depth place.index)

@[simp] theorem Place.logged_nil (place : Place) : place.logged [] = [] := rfl

theorem Place.logged_append (place : Place) (lines lines' : List String) :
    place.logged (lines ++ lines') = place.logged lines ++ place.logged lines' := List.map_append

/-- The desk comes to be so through the stores and the sink of a run. -/
inductive Stage.Reaches (stage : Stage σ) (d : Desk) : Desk → Prop
  | refl : stage.Reaches d d
  | screenshot {d' : Desk} (h : stage.Reaches d d') (name : String) (png : Disk.Bytes) :
    stage.Reaches d (stage.sink.storeScreenshot d' name png).2
  | session {d' : Desk} (h : stage.Reaches d d') (key : Session.Key) (session : SavedSession) :
    stage.Reaches d (stage.sessions.put d' key session).2.1

theorem Stage.Reaches.trans {stage : Stage σ} {d d' d'' : Desk} (h : stage.Reaches d d')
    (h' : stage.Reaches d' d'') : stage.Reaches d d'' := by
  induction h' with
  | refl => exact h
  | screenshot h' name png ih => exact .screenshot ih name png
  | session h' key session ih => exact .session ih key session

/-- What a step does by itself in one move, besides setting a variable. -/
inductive Stage.Moves (stage : Stage σ) (place : Place) :
    World σ × Trace → World σ × Trace → Prop
  | page {s : World σ} {t : Trace} (page : σ) : stage.Moves place (s, t) ({ s with page }, t)
  | say {s : World σ} {t : Trace} (lines : List LogLine) : stage.Moves place (s, t) (s.say lines, t)
  | picture {s : World σ} {t : Trace} (name : String) (png : Disk.Bytes) :
    stage.Moves place (s, t) ({ s with desk := (stage.sink.storeScreenshot s.desk name png).2 }, t)
  | session {s : World σ} {t : Trace} (key : Session.Key) (session : SavedSession) :
    stage.Moves place (s, t) ({ s with desk := (stage.sessions.put s.desk key session).2.1 }, t)
  | note {s : World σ} {t : Trace} (line : String) :
    stage.Moves place (s, t)
      (stage.heard (.stepLog place.scenario place.depth place.index line) s,
        { t with logs := t.logs ++ [line] })
  | selector {s : World σ} {t : Trace} (selector : String) :
    stage.Moves place (s, t) (s, { t with selector := some selector })
  | screenshot {s : World σ} {t : Trace} (reference : String) :
    stage.Moves place (s, t) (s, { t with screenshot := some reference })

/-- The invariant survives what a call to the browser may do to the world. -/
structure Undisturbed (I : World σ → Prop) : Prop where
  page : ∀ {s} (page : σ), I s → I { s with page }
  say : ∀ {s} (lines : List LogLine), I s → I (s.say lines)

/-- The invariant survives every single thing that a step may do to the world. -/
structure Stage.Stable (stage : Stage σ) (I : World σ → Prop) : Prop extends Undisturbed I where
  scope : ∀ {s} (scope : Scope), I s → I { s with scope }
  begun : ∀ {s} (begun : Nat), I s → I { s with begun }
  tell : ∀ {s} (e : Event), I s → I (s.tell e)
  screenshot : ∀ {s} (name : String) (png : Disk.Bytes), I s →
    I { s with desk := (stage.sink.storeScreenshot s.desk name png).2 }
  session : ∀ {s} (key : Session.Key) (session : SavedSession), I s →
    I { s with desk := (stage.sessions.put s.desk key session).2.1 }

/-- The invariant survives every move that the step at `place` makes by itself. -/
def Stage.Firm (stage : Stage σ) (place : Place) (J : World σ × Trace → Prop) : Prop :=
  ∀ ⦃x y⦄, stage.Moves place x y → J x → J y

theorem Stage.Firm.undisturbed {stage : Stage σ} {place : Place} {J : World σ × Trace → Prop}
    (firm : stage.Firm place J) (t : Trace) : Undisturbed fun s => J (s, t) :=
  ⟨fun page => firm (.page page), fun lines => firm (.say lines)⟩

/-- The calls to the browser that belong to what a step does. Taking the requests and ending the
recording do not. -/
inductive Browser.Offers (b : Browser σ) : {α : Type} → Call σ α → Prop
  | goto (url : String) : b.Offers (b.goto url)
  | currentUrl : b.Offers b.currentUrl
  | probe (selector : String) : b.Offers (b.probe selector)
  | perform (selector : String) (operation : Operation) : b.Offers (b.perform selector operation)
  | evaluate (script : String) : b.Offers (b.evaluate script)
  | screenshot (full : Bool) : b.Offers (b.screenshot full)
  | snapshot : b.Offers b.snapshot
  | restore (session : SavedSession) : b.Offers (b.restore session)

/-- What a step does by itself in one act, besides setting a variable and keeping a picture. Of the
moves that change the page only those of such a call are among them. -/
inductive Stage.Acts (stage : Stage σ) (place : Place) :
    World σ × Trace → World σ × Trace → Prop
  | call {α : Type} {call : Call σ α} {w : Watch} {c c' : Clock} {s s' : World σ} {e : Exit α} {t : Trace}
    (offered : stage.browser.Offers call) (ran : call.run w c s = (e, c', s')) :
    stage.Acts place (s, t) (s', t)
  | say {s : World σ} {t : Trace} (lines : List LogLine) : stage.Acts place (s, t) (s.say lines, t)
  | picture {s : World σ} {t : Trace} (name : String) (png : Disk.Bytes) :
    stage.Acts place (s, t) ({ s with desk := (stage.sink.storeScreenshot s.desk name png).2 }, t)
  | session {s : World σ} {t : Trace} (key : Session.Key) (session : SavedSession) :
    stage.Acts place (s, t) ({ s with desk := (stage.sessions.put s.desk key session).2.1 }, t)
  | note {s : World σ} {t : Trace} (line : String) :
    stage.Acts place (s, t)
      (stage.heard (.stepLog place.scenario place.depth place.index line) s,
        { t with logs := t.logs ++ [line] })
  | selector {s : World σ} {t : Trace} (selector : String) :
    stage.Acts place (s, t) (s, { t with selector := some selector })

/-- The invariant survives every act of the step at `place`. -/
def Stage.Endures (stage : Stage σ) (place : Place) (J : World σ × Trace → Prop) : Prop :=
  ∀ ⦃x y⦄, stage.Acts place x y → J x → J y

/-- The invariant survives that the step keeps a picture. -/
def Shown (J : World σ × Trace → Prop) : Prop :=
  ∀ ⦃s t⦄ (reference : String), J (s, t) → J (s, { t with screenshot := some reference })

theorem Stage.Firm.shown {stage : Stage σ} {place : Place} {J : World σ × Trace → Prop}
    (firm : stage.Firm place J) : Shown J :=
  fun _ _ reference => firm (.screenshot reference)

theorem Stage.Stable.heard {stage : Stage σ} {I : World σ → Prop} (stable : stage.Stable I) (e : Event)
    {s : World σ} (h : I s) : I (stage.heard e s) := by
  unfold Stage.heard
  split
  · exact stable.tell e h
  · exact h

theorem Stage.Stable.firm {stage : Stage σ} {I : World σ → Prop} (stable : stage.Stable I)
    (place : Place) : stage.Firm place fun st => I st.1 := by
  intro x y h hx
  cases h with
  | page page => exact stable.page page hx
  | say lines => exact stable.say lines hx
  | picture name png => exact stable.screenshot name png hx
  | session key session => exact stable.session key session hx
  | note line => exact stable.heard _ hx
  | selector selector => exact hx
  | screenshot reference => exact hx

/-- Every failure that is not fatal is tolerated, and so are those of the stores and of the sink. -/
structure Stage.Tolerates (stage : Stage σ) (P : Failure → Prop) : Prop where
  mild : ∀ {e : Failure}, e.isFatal = false → P e
  get : ∀ {d key e}, stage.sessions.get d key = .error e → P e
  put : ∀ {d key session e}, (stage.sessions.put d key session).1 = .error e → P e
  screenshot : ∀ {d name png e}, (stage.sink.storeScreenshot d name png).1 = .error e → P e

theorem Stage.tolerates_true (stage : Stage σ) : stage.Tolerates fun _ => True :=
  ⟨fun _ => trivial, fun _ => trivial, fun _ => trivial, fun _ => trivial⟩

def Answers (Q : α → Prop) (P : Failure → Prop) : Except Failure α → Prop
  | .ok a => Q a
  | .error e => P e

/-- A scenario was played, and what was fatal to it is tolerated, or why it was not played. -/
def Blames (P : Failure → Prop) : Except Failure Report → Prop :=
  Answers (fun r => ∀ e, r.fatal = some e → P e) P

open Timed (Maintains Whatever)

section

variable {I : World σ → Prop} (undisturbed : Undisturbed I)

include undisturbed

theorem maintains_say (lines : List LogLine) : Maintains I Whatever (Timed.say lines) :=
  .modify fun _ hs => undisturbed.say lines hs

theorem maintains_call (call : Call σ α) : Maintains I Whatever call.run := by
  induction call with
  | done a => exact .pure trivial
  | look next ih =>
    intro w c s hs
    exact ih c.now s.page w c s hs
  | save page next ih =>
    intro w c s hs
    exact ih w c { s with page } (undisturbed.page page hs)
  | pause millis next ih => exact .bind (.pause millis) fun _ _ => ih
  | cancel next ih =>
    intro w c s hs
    exact .since (.stop c) (ih w c.stop s hs)
  | note line next ih =>
    intro w c s hs
    exact ih w c (s.say [line]) (undisturbed.say [line] hs)

end

/-- The invariant survives every call that belongs to what a step does. -/
def Browser.Keeps (b : Browser σ) (I : World σ → Prop) : Prop :=
  ∀ ⦃α : Type⦄ ⦃call : Call σ α⦄, b.Offers call → Maintains I Whatever call.run

theorem Undisturbed.keeps {I : World σ → Prop} (undisturbed : Undisturbed I) (b : Browser σ) :
    b.Keeps I :=
  fun _ call _ => maintains_call undisturbed call

theorem Stage.Firm.endures {stage : Stage σ} {place : Place} {J : World σ × Trace → Prop}
    (firm : stage.Firm place J) : stage.Endures place J := by
  intro x y h hx
  cases h with
  | call offered ran => exact (maintains_call (firm.undisturbed _) _).holds hx ran
  | say lines => exact firm (.say lines) hx
  | picture name png => exact firm (.picture name png) hx
  | session key session => exact firm (.session key session) hx
  | note line => exact firm (.note line) hx
  | selector selector => exact firm (.selector selector) hx

theorem Stage.Endures.keeps {stage : Stage σ} {place : Place} {J : World σ × Trace → Prop}
    (endures : stage.Endures place J) (t : Trace) : stage.browser.Keeps fun s => J (s, t) := by
  intro α call offered w c s hs
  -- That the call ends as it should is known of every call; what it maintains, of this one.
  have hend := maintains_call (I := fun _ => True) ⟨fun _ _ => trivial, fun _ _ => trivial⟩ call w c s
    trivial
  generalize hrun : call.run w c s = r at hend ⊢
  rcases r with ⟨a | _ | _, c', s'⟩
  · exact ⟨hend.1, endures (.call offered hrun) hs, trivial⟩
  · exact ⟨hend.1, endures (.call offered hrun) hs, hend.2.2⟩
  · exact ⟨hend.1, endures (.call offered hrun) hs, hend.2.2⟩

theorem maintains_tell {stage : Stage σ} {I : World σ → Prop} (stable : stage.Stable I) (e : Event) :
    Maintains I Whatever (stage.tell e) := by
  intro w c s hs
  rw [stage.tell_apply]
  exact ⟨.refl c, stable.heard e hs, trivial⟩

theorem Stage.note_apply (stage : Stage σ) (place : Place) (line : String) (w : Watch) (c : Clock)
    (s : World σ) (t : Trace) :
    stage.note place line w c (s, t) =
      (.done (), c, stage.heard (.stepLog place.scenario place.depth place.index line)
        (s.say [.debug (place.text ++ " " ++ line)]), { t with logs := t.logs ++ [line] }) := by
  unfold Stage.note
  rw [Timed.bind_of_done (Timed.onFirst_of_done (Timed.say_apply ..) t),
    Timed.bind_of_done (Timed.onFirst_of_done (stage.tell_apply ..) t)]
  rfl

section

variable {stage : Stage σ} {place : Place} {J : World σ × Trace → Prop} (endures : stage.Endures place J)

include endures

theorem maintains_said (lines : List LogLine) :
    Maintains J Whatever (Timed.onFirst (Timed.say lines)) :=
  .onFirst fun _ => .modify fun _ hs => endures (.say lines) hs

theorem maintains_called {call : Call σ α} (offered : stage.browser.Offers call) :
    Maintains J Whatever (Timed.onFirst call.run) :=
  .onFirst fun t => endures.keeps t offered

theorem maintains_note (line : String) : Maintains J Whatever (stage.note place line) := by
  rintro w c ⟨s, t⟩ hs
  rw [stage.note_apply]
  exact ⟨.refl c, endures (.note line) (endures (.say _) hs), trivial⟩

end

namespace Work

/-- What a step's work maintains, with its result and its failure. -/
def Maintains (J : World σ × Trace → Prop) (Q : α → Prop) (P : Failure → Prop) (work : Work σ α) :
    Prop :=
  Timed.Maintains J (Answers Q P) work.run

namespace Maintains

variable {J : World σ × Trace → Prop} {Q R : α → Prop} {Q' : β → Prop} {P : Failure → Prop}
  {work : Work σ α}

theorem pure {a : α} (h : Q a) : Work.Maintains J Q P (pure a) := Timed.Maintains.pure h

theorem throw {e : Failure} (h : P e) : Work.Maintains J Q P (throw e) := Timed.Maintains.pure h

theorem bind {f : α → Work σ β} (hx : Work.Maintains J R P work)
    (hf : ∀ a, R a → Work.Maintains J Q' P (f a)) : Work.Maintains J Q' P (work >>= f) := by
  refine Timed.Maintains.bind hx ?_
  intro r hr
  cases r with
  | ok a => exact hf a hr
  | error e => exact .pure hr

theorem ofWorld {x : Timed (World σ) (Except Failure α)}
    (hx : ∀ t, Timed.Maintains (fun s => J (s, t)) (Answers Q P) x) :
    Work.Maintains J Q P (ofWorld x) := .onFirst hx

theorem liftSecond {x : Timed (World σ × Trace) α} (hx : Timed.Maintains J Q x) :
    Work.Maintains J Q P (ExceptT.lift x) := by
  show Timed.Maintains _ _ (x >>= fun a => Pure.pure (Except.ok a))
  exact Timed.Maintains.bind hx fun _ ha => .pure ha

theorem lift {x : Timed (World σ) α} (hx : ∀ t, Timed.Maintains (fun s => J (s, t)) Q x) :
    Work.Maintains J Q P (lift x) := liftSecond (.onFirst hx)

theorem ofExcept {r : Except Failure α} (h : Answers Q P r) : Work.Maintains J Q P (ofExcept r) :=
  Timed.Maintains.pure h

theorem try_ (hx : Work.Maintains J Q P work) : Work.Maintains J (Answers Q P) P (try_ work) :=
  Timed.Maintains.bind hx fun _ hr => .pure hr

end Maintains

section

variable {stage : Stage σ} {place : Place} {J : World σ × Trace → Prop} {P : Failure → Prop}
  (endures : stage.Endures place J) (tolerates : stage.Tolerates P)

include endures

theorem maintains_note (line : String) : Work.Maintains J Whatever P (note stage place line) :=
  .liftSecond (Rehearsal.maintains_note endures line)

theorem maintains_say (lines : List LogLine) :
    Work.Maintains J Whatever P (say lines : Work σ Unit) :=
  .liftSecond (maintains_said endures lines)

theorem maintains_setSelector (selector : String) :
    Work.Maintains J Whatever P (setSelector selector : Work σ Unit) :=
  .liftSecond (.modifySecond fun _ _ => endures (.selector selector))

omit endures in
theorem maintains_setScreenshot (shown : Shown J) (reference : String) :
    Work.Maintains J Whatever P (setScreenshot reference : Work σ Unit) :=
  .liftSecond (.modifySecond fun _ _ => shown reference)

include tolerates

theorem maintains_ask {call : Call σ (Answer α)} (offered : stage.browser.Offers call) :
    Work.Maintains J Whatever P (ask call) := by
  refine .ofWorld fun t => .bind (endures.keeps t offered) fun r _ => ?_
  cases r with
  | ok a => exact .pure trivial
  | error fault => exact .pure (tolerates.mild rfl)

theorem maintains_askScript {call : Call σ (Answer α)} (offered : stage.browser.Offers call) :
    Work.Maintains J Whatever P (askScript call) := by
  refine .ofWorld fun t => .bind (endures.keeps t offered) fun r _ => ?_
  cases r with
  | ok a => exact .pure trivial
  | error fault =>
    refine .pure (tolerates.mild ?_)
    cases fault with
    | script message => rfl
    | noSuchElement selector => rfl
    | navigation url reason => rfl
    | protocol message => rfl

theorem maintains_storeScreenshot (name : String) (png : Disk.Bytes) :
    Work.Maintains J Whatever P (storeScreenshot stage name png) := by
  refine .ofWorld fun t => ?_
  intro w c s hs
  refine ⟨.refl c, endures (.picture name png) hs, ?_⟩
  cases h : (stage.sink.storeScreenshot s.desk name png).1 with
  | ok stored => exact trivial
  | error e => exact tolerates.screenshot h

omit endures in
theorem maintains_settle {report : Report}
    (hchildren : ∀ s t, J (s, t) → J (s, { t with children := t.children ++ report.outcomes }))
    (h : ∀ e, report.fatal = some e → P e) (id : String) :
    Work.Maintains J Whatever P (settle report id : Work σ Unit) := by
  refine .bind (.liftSecond (.modifySecond hchildren)) fun _ _ => .ofExcept ?_
  unfold Report.settle
  split
  · rename_i e he
    exact h e he
  split
  · exact tolerates.mild rfl
  split
  · exact tolerates.mild rfl
  · exact trivial

end

end Work

end Rehearsal
