import Mathlib.Data.List.Forall2
import Rehearsal.Proofs.Deeds
import Rehearsal.Proofs.Following
import Rehearsal.Proofs.RunCourse

/-! # Runs that go alike

Two runs on two stages, in worlds that are alike. What their worlds have in common is left open: they may
be equal, or differ in what is only told, in the count of steps and in the pictures kept. If each single
thing that a step does leads from worlds that are alike to such worlds, the runs go alike. Often both
stages are the same one.
-/
namespace Rehearsal

open Timed (AtOnce Both Follows Never Whatever)

variable {σ α β γ δ : Type}

/-- When two worlds are alike, when the outcomes of two steps and their pictures are, and whether the
runs may differ in what they tell and in the names of their pictures. After a bad failure of the first
run nothing is asked of the second. Only steps that are fit are compared. -/
structure Likeness (σ : Type) where
  world : World σ → World σ → Prop
  outcome : Outcome → Outcome → Prop
  picture : Option String → Option String → Prop
  loose : Prop
  bad : Failure → Prop
  fit : Step → Prop
  unpictured : picture none none

/-- Begins the name of some step's pictures. -/
def IsStem (stem : String) : Prop := ∃ number action, stem = Play.stem number action

/-- The name of a picture that belongs to some step. -/
inductive IsPicture : String → Prop
  | shot {stem : String} (h : IsStem stem) : IsPicture (stem ++ ".png")
  | error {stem : String} (h : IsStem stem) : IsPicture (stem ++ "_error.png")

/-- The file that a deed needs. -/
def Deed.file? : Deed → Option Disk.Path
  | .upload _ path | .pasteImage _ path => some path
  | _ => none

/-- Both answers are good and go together, or they are the same failure. -/
def Likewise (Q : α → β → Prop) : Except Failure α → Except Failure β → Prop
  | .ok a, .ok b => Q a b
  | .error e, .error e' => e = e'
  | _, _ => False

theorem Likewise.of_eq {r r' : Except Failure α} (h : r = r') : Likewise Eq r r' := by
  subst h
  cases r with
  | ok a => rfl
  | error e => rfl

theorem Likewise.eq {r r' : Except Failure α} (h : Likewise Eq r r') : r = r' := by
  cases r with
  | ok a =>
    cases r' with
    | ok b => exact congrArg _ h
    | error e => exact h.elim
  | error e =>
    cases r' with
    | ok b => exact h.elim
    | error e' => exact congrArg _ h

namespace Likeness

variable (k : Likeness σ)

/-- What may differ only where the runs may differ in what they tell. -/
def Loosely (a b : α) : Prop := k.loose ∨ a = b

/-- The lines are equal, or tell of pictures kept under different names. -/
inductive Line : String → String → Prop
  | same (line : String) : Line line line
  | kept (loose : k.loose) (reference reference' : String) :
    Line ("📸 截图已保存: " ++ reference) ("📸 截图已保存: " ++ reference')

structure Trace (t t' : Rehearsal.Trace) : Prop where
  logs : List.Forall₂ k.Line t.logs t'.logs
  selector : t.selector = t'.selector
  screenshot : k.picture t.screenshot t'.screenshot
  children : List.Forall₂ k.outcome t.children t'.children

structure Report (r r' : Rehearsal.Report) : Prop where
  outcomes : List.Forall₂ k.outcome r.outcomes r'.outcomes
  failed : r.failed = r'.failed
  cancelled : r.cancelled = r'.cancelled
  fatal : r.fatal = r'.fatal

/-- What was fatal to a scenario was bad. -/
def BadReport (r : Rehearsal.Report) : Prop := ∃ e, r.fatal = some e ∧ k.bad e

variable {k}

theorem Loosely.rfl {a : α} : k.Loosely a a := .inr (Eq.refl a)

theorem Loosely.map {a b : α} (h : k.Loosely a b) (f : α → β) : k.Loosely (f a) (f b) :=
  h.imp_right (congrArg f)

theorem Line.loosely {line line' : String} (h : k.Line line line') : k.Loosely line line' := by
  cases h with
  | same => exact .rfl
  | kept loose => exact .inl loose

theorem Trace.empty : k.Trace .empty .empty := ⟨.nil, Eq.refl _, k.unpictured, .nil⟩

theorem Report.empty : k.Report .empty .empty := ⟨.nil, Eq.refl _, Eq.refl _, Eq.refl _⟩

end Likeness

/-- Calls of two browsers for the same thing. Calls for pictures are not among them. -/
inductive Browser.Pairs (b b' : Browser σ) : {α : Type} → Call σ α → Call σ α → Prop
  | goto (url : String) : b.Pairs b' (b.goto url) (b'.goto url)
  | currentUrl : b.Pairs b' b.currentUrl b'.currentUrl
  | probe (selector : String) : b.Pairs b' (b.probe selector) (b'.probe selector)
  | perform (selector : String) (operation : Operation) :
    b.Pairs b' (b.perform selector operation) (b'.perform selector operation)
  | evaluate (script : String) : b.Pairs b' (b.evaluate script) (b'.evaluate script)
  | snapshot : b.Pairs b' b.snapshot b'.snapshot
  | restore (session : SavedSession) : b.Pairs b' (b.restore session) (b'.restore session)
  | takeRequests : b.Pairs b' b.takeRequests b'.takeRequests
  | finishRecording : b.Pairs b' b.finishRecording b'.finishRecording

/-- Two works of steps go alike, with results that are related or the same failure. -/
def Work.Alike (k : Likeness σ) (Q : α → β → Prop) (work : Work σ α) (work' : Work σ β) : Prop :=
  Follows (Both k.world k.Trace) (Likewise Q) (Answers Never k.bad) work.run work'.run

/-- What is said and told on two stages leads from worlds that are alike to such worlds. -/
structure Stage.Tells (stage stage' : Stage σ) (k : Likeness σ) : Prop where
  say : ∀ {s t lines lines'}, k.Loosely lines lines' → k.world s t → k.world (s.say lines) (t.say lines')
  heard : ∀ {s t e e'}, k.Loosely e e' → k.world s t → k.world (stage.heard e s) (stage'.heard e' t)

/-- Each thing that a step may do leads from worlds that are alike to such worlds. -/
structure Stage.Admits (stage stage' : Stage σ) (k : Likeness σ) : Prop
    extends Stage.Tells stage stage' k where
  scope_eq : ∀ {s t}, k.world s t → s.scope = t.scope
  begun_eq : ∀ {s t}, k.world s t → k.Loosely s.begun t.begun
  scope : ∀ {s t} (scope : Scope), k.world s t → k.world { s with scope } { t with scope }
  begun : ∀ {s t}, k.world s t →
    k.world { s with begun := s.begun + 1 } { t with begun := t.begun + 1 }
  closes : ∀ {s t place place' stack stack' step o o' failure},
    k.Loosely (place, stack) (place', stack') → ((place, stack) = (place', stack') → k.outcome o o') →
    k.world s t →
    k.world (stage.closes ⟨place, stack, step, o, failure⟩ s)
      (stage'.closes ⟨place', stack', step, o', failure⟩ t)
  call : ∀ {α : Type} {call call' : Call σ α} {B : α → Prop},
    stage.browser.Pairs stage'.browser call call' →
    Follows k.world Eq B call.run call'.run
  settings_eq : stage.settings.projectId = stage'.settings.projectId ∧
    stage.settings.authCheckTimeout = stage'.settings.authCheckTimeout
  references : stage.referenceLines = stage'.referenceLines
  task : ∀ {s t step}, k.fit step → k.world s t →
    stage.task s.desk s.scope step = stage'.task t.desk t.scope step
  file : ∀ {s t d scope step task path}, k.fit step → k.world s t →
    stage.task d scope step = .ok task → task.deed.file? = some path →
    s.desk.disk.has path = t.desk.disk.has path ∧
      s.desk.disk.readBytes path = t.desk.disk.readBytes path
  get : ∀ {s t} key, k.world s t → stage.sessions.get s.desk key = stage'.sessions.get t.desk key
  put : ∀ {s t} key session, k.world s t →
    (stage.sessions.put s.desk key session).1 = (stage'.sessions.put t.desk key session).1 ∧
    k.Loosely (stage.sessions.put s.desk key session).2.2 (stage'.sessions.put t.desk key session).2.2 ∧
    k.world { s with desk := (stage.sessions.put s.desk key session).2.1 }
      { t with desk := (stage'.sessions.put t.desk key session).2.1 }
  load : ∀ {s t} id, k.world s t →
    (stage.scenarios.load s.desk id).1 = (stage'.scenarios.load t.desk id).1 ∧
    k.Loosely (stage.scenarios.load s.desk id).2 (stage'.scenarios.load t.desk id).2
  shot : ∀ {d scope step task place place' stem stem'} (runner runner' : Runner σ)
    (stack stack' : CallStack) (timeout : Nat), k.fit step → stage.task d scope step = .ok task →
    task.deed = .screenshot → k.Loosely place place' → IsStem stem → IsStem stem' → k.Loosely stem stem' →
    Work.Alike k Eq (Perform.deed stage runner place stack stem timeout .screenshot)
      (Perform.deed stage' runner' place' stack' stem' timeout .screenshot)
  pictured : ∀ {stem stem'} (action : Action) (r : Except Failure Unit), IsStem stem → IsStem stem' →
    k.Loosely stem stem' →
    Follows (Both k.world k.Trace) Eq Never (Play.captureAfter stage action stem r)
      (Play.captureAfter stage' action stem' r)
  outcome : ∀ {t t'} index action name status error millis requests, k.Trace t t' →
    k.outcome
      ⟨index, action, name, status, t.selector, error, millis, t.screenshot, requests, t.logs,
        t.children⟩
      ⟨index, action, name, status, t'.selector, error, millis, t'.screenshot, requests, t'.logs,
        t'.children⟩
  reads : ∀ {o o'}, k.outcome o o' →
    o.index = o'.index ∧ o.action = o'.action ∧ o.status = o'.status ∧ o.error = o'.error
  fatal : ∀ {e}, k.bad e → e.isFatal = true
  take : ∀ {e}, k.bad e → AtOnce Whatever stage.browser.takeRequests.run

variable {stage stage' : Stage σ} {k : Likeness σ}

section

variable (tells : stage.Tells stage' k)

include tells

theorem follows_say {B : Unit → Prop} {lines lines' : List LogLine} (h : k.Loosely lines lines') :
    Follows k.world Eq B (Timed.say lines) (Timed.say lines') :=
  .modify fun _ _ => tells.say h

theorem follows_tell {B : Unit → Prop} {e e' : Event} (h : k.Loosely e e') :
    Follows k.world Eq B (stage.tell e) (stage'.tell e') := by
  intro w v _ c s t hst
  rw [stage.tell_apply, stage'.tell_apply]
  exact ⟨.refl w c, .inr ⟨(), _, rfl, tells.heard h hst, rfl⟩⟩

theorem follows_note {B : Unit → Prop} {place place' : Place} {line line' : String}
    (hplace : k.Loosely place place') (hline : k.Line line line') :
    Follows (Both k.world k.Trace) Eq B (stage.note place line) (stage'.note place' line') := by
  rintro w v _ c ⟨s, t⟩ ⟨s', t'⟩ ⟨hs, ht⟩
  rw [stage.note_apply, stage'.note_apply]
  have hboth : k.Loosely (place, line) (place', line') := by
    rcases hplace with loose | rfl
    · exact .inl loose
    · exact hline.loosely.map (Prod.mk place)
  refine ⟨.refl w c, .inr ⟨(), _, rfl, ⟨?_, ?_⟩, rfl⟩⟩
  · refine tells.heard
      (hboth.map fun p => Event.stepLog p.1.scenario p.1.depth p.1.index p.2) ?_
    exact tells.say (hboth.map fun p => [LogLine.debug (p.1.text ++ " " ++ p.2)]) hs
  · exact { ht with logs := List.rel_append ht.logs (.cons hline .nil) }

end

namespace Work

namespace Alike

variable {Q : α → β → Prop} {P : γ → δ → Prop} {work : Work σ α} {work' : Work σ β}

theorem pure {a : α} {b : β} (h : Q a b) : Alike k Q (pure a) (pure b) := Follows.pure h

theorem throw (e : Failure) : Alike k Q (throw e) (throw e) := Follows.pure rfl

theorem bind {f : α → Work σ γ} {g : β → Work σ δ} (hx : Alike k Q work work')
    (hf : ∀ a b, Q a b → Alike k P (f a) (g b)) : Alike k P (work >>= f) (work' >>= g) := by
  refine Follows.bind hx ?_ ?_
  · intro r r' hr
    cases r with
    | ok a =>
      cases r' with
      | ok b => exact hf a b hr
      | error e => exact hr.elim
    | error e =>
      cases r' with
      | ok b => exact hr.elim
      | error e' => exact Follows.pure hr
  · intro r hr
    cases r with
    | ok a => exact hr.elim
    | error e => exact .pure hr

/-- Where the first parts have the same result. -/
theorem andThen {work' : Work σ α} {f : α → Work σ γ} {g : α → Work σ δ} (hx : Alike k Eq work work')
    (hf : ∀ a, Alike k P (f a) (g a)) : Alike k P (work >>= f) (work' >>= g) := by
  refine bind hx ?_
  rintro a _ rfl
  exact hf a

theorem ofWorld {x : Timed (World σ) (Except Failure α)} {y : Timed (World σ) (Except Failure β)}
    (hx : Follows k.world (Likewise Q) Never x y) : Alike k Q (ofWorld x) (ofWorld y) :=
  (hx.onFirst).mono (fun _ _ h => h) fun _ => False.elim

theorem liftSecond {x : Timed (World σ × Trace) α} {y : Timed (World σ × Trace) β}
    (hx : Follows (Both k.world k.Trace) Q Never x y) :
    Alike k Q (ExceptT.lift x) (ExceptT.lift y) := by
  show Follows _ _ _ (x >>= fun a => Pure.pure (Except.ok a)) (y >>= fun a => Pure.pure (Except.ok a))
  exact .andThen hx fun _ _ h => .pure h

theorem lift {x : Timed (World σ) α} {y : Timed (World σ) β} (hx : Follows k.world Q Never x y) :
    Alike k Q (lift x) (lift y) := liftSecond hx.onFirst

/-- What is read off worlds that are alike. -/
theorem readWorld {f g : World σ → Except Failure α} (h : ∀ s t, k.world s t → f s = g t) :
    Alike k Eq (Work.ofWorld fun _ c s => (.done (f s), c, s))
      (Work.ofWorld fun _ c s => (.done (g s), c, s)) :=
  ofWorld (.read fun _ s t hst => .of_eq (h s t hst))

end Alike

section

variable {place place' : Place}

theorem alike_setSelector (selector : String) :
    Alike k Eq (setSelector selector : Work σ Unit) (setSelector selector) :=
  .liftSecond (.modify fun _ _ h => ⟨h.1, { h.2 with selector := rfl }⟩)

theorem alike_setScreenshot {reference reference' : String}
    (h : k.picture (some reference) (some reference')) :
    Alike k Eq (setScreenshot reference : Work σ Unit) (setScreenshot reference') :=
  .liftSecond (.modify fun _ _ hst => ⟨hst.1, { hst.2 with screenshot := h }⟩)

theorem alike_note (tells : stage.Tells stage' k) (hplace : k.Loosely place place') {line line' : String}
    (hline : k.Line line line') :
    Alike k Eq (note stage place line) (note stage' place' line') :=
  .liftSecond (follows_note tells hplace hline)

theorem alike_say (tells : stage.Tells stage' k) {lines lines' : List LogLine}
    (h : k.Loosely lines lines') : Alike k Eq (say lines : Work σ Unit) (say lines') :=
  .lift (follows_say tells h)

theorem Alike.ask {call call' : Call σ (Answer α)} (h : Follows k.world Eq Never call.run call'.run) :
    Alike k Eq (ask call) (ask call') := by
  refine .ofWorld (.andThen h ?_)
  rintro r _ rfl
  cases r with
  | ok a => exact .pure rfl
  | error fault => exact .pure rfl

theorem Alike.askScript {call call' : Call σ (Answer α)}
    (h : Follows k.world Eq Never call.run call'.run) :
    Alike k Eq (askScript call) (askScript call') := by
  refine .ofWorld (.andThen h ?_)
  rintro r _ rfl
  cases r with
  | ok a => exact .pure rfl
  | error fault => exact .pure rfl

variable (admits : stage.Admits stage' k)

include admits

theorem alike_ask {call call' : Call σ (Answer α)} (h : stage.browser.Pairs stage'.browser call call') :
    Alike k Eq (ask call) (ask call') :=
  .ask (admits.call h)

theorem alike_askScript {call call' : Call σ (Answer α)}
    (h : stage.browser.Pairs stage'.browser call call') :
    Alike k Eq (askScript call) (askScript call') :=
  .askScript (admits.call h)

/-- The reports of scenarios that went alike mean the same to the steps that had them played. -/
theorem settle_eq {r r' : Report} (h : k.Report r r') (id : String) : r.settle id = r'.settle id := by
  have hreason : r.reason = r'.reason := by
    have hfind : ∀ {os os'}, List.Forall₂ k.outcome os os' →
        (os.find? (·.isFailed)).map (fun o => (o.index, o.action, o.error)) =
          (os'.find? (·.isFailed)).map fun o => (o.index, o.action, o.error) := by
      intro os os' hall
      induction hall with
      | nil => rfl
      | @cons o o' os os' ho _ ih =>
        obtain ⟨hindex, haction, hstatus, herror⟩ := admits.reads ho
        have hfailed : o.isFailed = o'.isFailed := by rw [Outcome.isFailed, hstatus, Outcome.isFailed]
        rw [List.find?_cons, List.find?_cons, hfailed]
        cases o'.isFailed with
        | true => simp only [Option.map_some, hindex, haction, herror]
        | false => exact ih
    have hfound := hfind h.outcomes
    unfold Report.reason
    cases hr : r.outcomes.find? (·.isFailed) with
    | none =>
      cases hr' : r'.outcomes.find? (·.isFailed) with
      | none => rfl
      | some o' => rw [hr, hr'] at hfound; cases hfound
    | some o =>
      cases hr' : r'.outcomes.find? (·.isFailed) with
      | none => rw [hr, hr'] at hfound; cases hfound
      | some o' =>
        rw [hr, hr', Option.map_some, Option.map_some, Option.some.injEq, Prod.mk.injEq,
          Prod.mk.injEq] at hfound
        obtain ⟨hindex, haction, herror⟩ := hfound
        simp only [hindex, haction, herror]
  unfold Report.settle
  rw [h.fatal, h.cancelled, h.failed, hreason]

theorem alike_settle {r r' : Report} (h : k.Report r r') (id : String) :
    Alike k Eq (settle r id : Work σ Unit) (settle r' id) := by
  refine .andThen (.liftSecond (.modify fun _ _ hst => ?_)) fun _ => ?_
  · exact ⟨hst.1, { hst.2 with children := List.rel_append hst.2.children h.outcomes }⟩
  · exact Follows.pure (.of_eq (settle_eq admits h id))

end

end Work

/-- In worlds that are alike on one stage there is the same page, and pictures are kept alike. -/
structure Stage.Shows (stage : Stage σ) (k : Likeness σ) : Prop extends Stage.Tells stage stage k where
  page_eq : ∀ {s t}, k.world s t → s.page = t.page
  page : ∀ {s t} (page : σ), k.world s t → k.world { s with page } { t with page }
  picture : ∀ {s t name name'} png, IsPicture name → IsPicture name' → k.Loosely name name' →
    k.world s t →
    Likewise k.Loosely (stage.sink.storeScreenshot s.desk name png).1
      (stage.sink.storeScreenshot t.desk name' png).1 ∧
    k.world { s with desk := (stage.sink.storeScreenshot s.desk name png).2 }
      { t with desk := (stage.sink.storeScreenshot t.desk name' png).2 }
  kept : ∀ {reference reference' : String}, k.Loosely reference reference' →
    k.picture (some reference) (some reference')

namespace Stage.Shows

variable (shows : stage.Shows k) {place place' : Place} {name name' stem stem' : String}

include shows

/-- A call does the same in worlds with the same page. -/
theorem call {B : α → Prop} (call : Call σ α) : Follows k.world Eq B call.run call.run := by
  induction call with
  | done a => exact .pure rfl
  | look next ih =>
    intro w v hw c s t hst
    show Timed.Beside w v c _ _ _ _ ((next c.now t.page).run v c t)
    rw [← shows.page_eq hst]
    exact ih c.now s.page w v hw c s t hst
  | save page next ih =>
    intro w v hw c s t hst
    exact ih w v hw c _ _ (shows.page page hst)
  | pause millis next ih => exact .andThen (.pause millis _) fun _ _ _ => ih
  | cancel next ih =>
    intro w v hw c s t hst
    exact .since (fun d _ => Nat.le_max_left ..) (ih w v hw c.stop s t hst)
  | note line next ih =>
    intro w v hw c s t hst
    exact ih w v hw c _ _ (shows.say .rfl hst)

theorem pairs {call call' : Call σ α} {B : α → Prop}
    (h : stage.browser.Pairs stage.browser call call') : Follows k.world Eq B call.run call'.run := by
  cases h <;> exact shows.call _

theorem storeScreenshot {B : Except Failure String → Prop} (hname : IsPicture name)
    (hname' : IsPicture name') (h : k.Loosely name name') (png : Disk.Bytes) :
    Follows (Both k.world k.Trace) (Likewise k.Loosely) B (Work.storeScreenshot stage name png).run
      (Work.storeScreenshot stage name' png).run := by
  rintro w v _ c ⟨s, t⟩ ⟨s', t'⟩ ⟨hs, ht⟩
  obtain ⟨answer, world⟩ := shows.picture png hname hname' h hs
  exact ⟨.refl w c, .inr ⟨_, _, rfl, ⟨world, ht⟩, answer⟩⟩

theorem shot (hplace : k.Loosely place place') (hstem : IsStem stem) (hstem' : IsStem stem')
    (hstems : k.Loosely stem stem') (runner runner' : Runner σ) (stack stack' : CallStack)
    (timeout : Nat) :
    Work.Alike k Eq (Perform.deed stage runner place stack stem timeout .screenshot)
      (Perform.deed stage runner' place' stack' stem' timeout .screenshot) := by
  refine .andThen (.ask (shows.call _)) fun png => ?_
  refine .bind (shows.storeScreenshot (.shot hstem) (.shot hstem') (hstems.map (· ++ ".png")) png)
    fun stored stored' hstored => ?_
  refine .andThen (Work.alike_note shows.toTells hplace ?_) fun _ =>
    Work.alike_setScreenshot (shows.kept hstored)
  rcases hstored with loose | rfl
  · exact .kept loose stored stored'
  · exact .same _

theorem capture (hname : IsPicture name) (hname' : IsPicture name') (h : k.Loosely name name') :
    Follows (Both k.world k.Trace) Eq Never (Play.capture stage name) (Play.capture stage name') := by
  refine .andThen (.onFirst (shows.call _)) ?_
  rintro r _ rfl
  cases r with
  | error fault => exact .onFirst (follows_say shows.toTells .rfl)
  | ok png =>
    refine .andThen (shows.storeScreenshot hname hname' h png) ?_
    intro r r' hr
    cases r with
    | ok stored =>
      cases r' with
      | ok stored' =>
        exact .modify fun _ _ hst => ⟨hst.1, { hst.2 with screenshot := shows.kept hr }⟩
      | error e => exact hr.elim
    | error e =>
      cases r' with
      | ok stored' => exact hr.elim
      | error e' =>
        obtain rfl : e = e' := hr
        exact .onFirst (follows_say shows.toTells .rfl)

theorem captureAfter (action : Action) (r : Except Failure Unit) (hstem : IsStem stem)
    (hstem' : IsStem stem') (hstems : k.Loosely stem stem') :
    Follows (Both k.world k.Trace) Eq Never (Play.captureAfter stage action stem r)
      (Play.captureAfter stage action stem' r) := by
  cases r with
  | ok u =>
    simp only [Play.captureAfter]
    split
    · exact shows.capture (.shot hstem) (.shot hstem') (hstems.map (· ++ ".png"))
    · exact .pure rfl
  | error e =>
    simp only [Play.captureAfter]
    split
    · exact .pure rfl
    · exact shows.capture (.error hstem) (.error hstem') (hstems.map (· ++ "_error.png"))

end Stage.Shows

/-- The worlds are equal, and come to be so in a run that began at the desk. -/
def Likeness.equal (stage : Stage σ) (d : Desk) : Likeness σ where
  world s t := s = t ∧ stage.Reaches d s.desk
  outcome := Eq
  picture := Eq
  loose := False
  bad := Never
  fit := Whatever
  unpictured := rfl

namespace Likeness

variable {d : Desk}

theorem Loosely.eq {a b : α} (h : (equal stage d).Loosely a b) : a = b := h.resolve_left id

theorem Trace.eq {t t' : Rehearsal.Trace} (h : (equal stage d).Trace t t') : t = t' := by
  have hlogs : t.logs = t'.logs := by
    refine List.forall₂_eq_eq_eq ▸ h.logs.imp fun line line' hline => ?_
    exact hline.loosely.eq
  have hchildren : t.children = t'.children := List.forall₂_eq_eq_eq ▸ h.children
  obtain ⟨logs, selector, screenshot, children⟩ := t
  obtain ⟨logs', selector', screenshot', children'⟩ := t'
  obtain rfl : logs = logs' := hlogs
  obtain rfl : selector = selector' := h.selector
  obtain rfl : screenshot = screenshot' := h.screenshot
  obtain rfl : children = children' := hchildren
  rfl

theorem Trace.refl (t : Rehearsal.Trace) : (equal stage d).Trace t t :=
  ⟨List.forall₂_same.mpr fun _ _ => .same _, Eq.refl _, Eq.refl _,
    List.forall₂_same.mpr fun _ _ => Eq.refl _⟩

theorem Report.eq {r r' : Rehearsal.Report} (h : (equal stage d).Report r r') : r = r' := by
  have houtcomes : r.outcomes = r'.outcomes := List.forall₂_eq_eq_eq ▸ h.outcomes
  obtain ⟨outcomes, failed, cancelled, fatal⟩ := r
  obtain ⟨outcomes', failed', cancelled', fatal'⟩ := r'
  obtain rfl : outcomes = outcomes' := houtcomes
  obtain rfl : failed = failed' := h.failed
  obtain rfl : cancelled = cancelled' := h.cancelled
  obtain rfl : fatal = fatal' := h.fatal
  rfl

end Likeness

theorem Stage.reaches_heard {d : Desk} {s : World σ} (e : Event) (h : stage.Reaches d s.desk) :
    stage.Reaches d (stage.heard e s).desk := by
  rw [stage.desk_heard]
  exact h

theorem Stage.shows_equal (stage : Stage σ) (d : Desk) : stage.Shows (.equal stage d) where
  say hlines h := ⟨congrArg₂ World.say h.1 hlines.eq, h.2⟩
  heard he h := ⟨congrArg₂ stage.heard he.eq h.1, stage.reaches_heard _ h.2⟩
  page_eq h := congrArg World.page h.1
  page page h := ⟨congrArg (fun s => { s with page }) h.1, h.2⟩
  picture png _ _ hname h := by
    obtain ⟨rfl, hreached⟩ := h
    obtain rfl := hname.eq
    refine ⟨?_, rfl, .screenshot hreached _ png⟩
    cases (stage.sink.storeScreenshot _ _ png).1 with
    | ok stored => exact .rfl
    | error e => rfl
  kept h := congrArg some h.eq

theorem Stage.admits_equal (stage : Stage σ) (d : Desk) : stage.Admits stage (.equal stage d) where
  toTells := (stage.shows_equal d).toTells
  scope_eq h := congrArg World.scope h.1
  begun_eq h := .inr (congrArg World.begun h.1)
  scope scope h := ⟨congrArg (fun s => { s with scope }) h.1, h.2⟩
  begun h := ⟨congrArg (fun s => { s with begun := s.begun + 1 }) h.1, h.2⟩
  closes hplace ho h := by
    obtain ⟨rfl, hreached⟩ := h
    obtain ⟨rfl, rfl⟩ := Prod.mk.inj hplace.eq
    obtain rfl := ho rfl
    refine ⟨rfl, ?_⟩
    rw [stage.desk_closes]
    exact hreached
  call h := (stage.shows_equal d).pairs h
  settings_eq := ⟨rfl, rfl⟩
  references := rfl
  task _ h := by rw [h.1]
  file _ h _ _ := by rw [h.1]; exact ⟨rfl, rfl⟩
  get _ h := by rw [h.1]
  put key session h := by
    obtain ⟨rfl, hreached⟩ := h
    exact ⟨rfl, .rfl, rfl, .session hreached key session⟩
  load id h := by rw [h.1]; exact ⟨rfl, .rfl⟩
  shot runner runner' stack stack' timeout _ _ _ hplace hstem hstem' hstems :=
    (stage.shows_equal d).shot hplace hstem hstem' hstems runner runner' stack stack' timeout
  pictured action r hstem hstem' hstems :=
    (stage.shows_equal d).captureAfter action r hstem hstem' hstems
  outcome index action name status error millis requests h := by
    obtain rfl := h.eq
    rfl
  reads h := by
    obtain rfl := h
    exact ⟨rfl, rfl, rfl, rfl⟩
  fatal h := h.elim
  take h := h.elim

end Rehearsal
