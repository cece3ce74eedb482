import Rehearsal.Proofs.Guard
import Rehearsal.Proofs.Likeness

/-! # Runs that differ in their pictures

The pictures of a run are numbered with its steps. Two runs that play the same steps under other numbers
keep their pictures under other names; as long as nobody looks at these, they go alike.
-/
namespace Rehearsal

open Timed (AtOnce Whatever)

variable {σ : Type}

/-- The lines are equal, or tell of pictures kept under different names. -/
inductive SameLine : String → String → Prop
  | same (line : String) : SameLine line line
  | kept (reference reference' : String) :
    SameLine ("📸 截图已保存: " ++ reference) ("📸 截图已保存: " ++ reference')

/-- The outcomes are the same but for the names of pictures, in nested steps as well. -/
inductive Outcome.Alike : Outcome → Outcome → Prop
  | mk {index : Nat} {action : Action} {name : Option String} {status : StepStatus}
    {selector error : Option String} {millis : Nat} {requests : List NetworkRequest}
    {screenshot screenshot' : Option String} {logs logs' : List String} {children children' : List Outcome}
    (pictured : screenshot.isSome = screenshot'.isSome) (noted : List.Forall₂ SameLine logs logs')
    (inside : List.Forall₂ Outcome.Alike children children') :
    Outcome.Alike
      ⟨index, action, name, status, selector, error, millis, screenshot, requests, logs, children⟩
      ⟨index, action, name, status, selector, error, millis, screenshot', requests, logs', children'⟩

/-- Desks that differ in pictures, in the sense of `D`, serve fit steps equally well. -/
structure Stage.Overlooks (stage : Stage σ) (D : Desk → Desk → Prop) (fit : Step → Prop) : Prop where
  refl : ∀ d, D d d
  task : ∀ {d d' : Desk} {scope : Scope} {step : Step}, fit step → D d d' →
    stage.task d scope step = stage.task d' scope step
  file : ∀ {d d' d₀ : Desk} {scope : Scope} {step : Step} {task : Task} {path : Disk.Path}, fit step →
    D d d' → stage.task d₀ scope step = .ok task → task.deed.file? = some path →
    d.disk.has path = d'.disk.has path ∧ d.disk.readBytes path = d'.disk.readBytes path
  get : ∀ {d d' : Desk} (key : Session.Key), D d d' → stage.sessions.get d key = stage.sessions.get d' key
  put : ∀ {d d' : Desk} (key : Session.Key) (session : SavedSession), D d d' →
    (stage.sessions.put d key session).1 = (stage.sessions.put d' key session).1 ∧
      D (stage.sessions.put d key session).2.1 (stage.sessions.put d' key session).2.1
  picture : ∀ {d d' : Desk} {name name' : String} (png : Disk.Bytes), IsPicture name → IsPicture name' →
    D d d' →
    Likewise (fun _ _ => True) (stage.sink.storeScreenshot d name png).1
        (stage.sink.storeScreenshot d' name' png).1 ∧
      D (stage.sink.storeScreenshot d name png).2 (stage.sink.storeScreenshot d' name' png).2
  record : ∀ {d d' : Desk} (record record' : RunRecord), D d d' →
    D (stage.sink.storeResult d record).2 (stage.sink.storeResult d' record').2

/-- The worlds are equal but for pictures, for what is only told and for the count of steps. Both are
those of runs that began at the desk. -/
def Likeness.overlooking (stage : Stage σ) (d : Desk) (D : Desk → Desk → Prop) (fit : Step → Prop)
    (bad : Failure → Prop) : Likeness σ where
  world s t := s.page = t.page ∧ s.scope = t.scope ∧ D s.desk t.desk ∧ stage.Reaches d s.desk ∧
    stage.Reaches d t.desk
  outcome := Outcome.Alike
  picture reference reference' := reference.isSome = reference'.isSome
  loose := True
  bad := bad
  fit := fit
  unpictured := rfl

variable {stage : Stage σ} {d : Desk} {D : Desk → Desk → Prop} {fit : Step → Prop}
  {bad : Failure → Prop}

theorem Likeness.Line.sameLine {line line' : String}
    (h : (Likeness.overlooking stage d D fit bad).Line line line') : SameLine line line' := by
  cases h with
  | same => exact .same line
  | kept _ reference reference' => exact .kept reference reference'

/-- Nothing of a world is compared but its page, its variables and its desk. -/
theorem Likeness.overlooking_of_same {s s' t t' : World σ}
    (h : (Likeness.overlooking stage d D fit bad).world s t) (page : s'.page = s.page)
    (page' : t'.page = t.page) (scope : s'.scope = s.scope) (scope' : t'.scope = t.scope)
    (desk : s'.desk = s.desk) (desk' : t'.desk = t.desk) :
    (Likeness.overlooking stage d D fit bad).world s' t' := by
  obtain ⟨hpage, hscope, desks, reached, reached'⟩ := h
  exact ⟨by rw [page, page', hpage], by rw [scope, scope', hscope], by rw [desk, desk']; exact desks,
    by rw [desk]; exact reached, by rw [desk']; exact reached'⟩

theorem Stage.Overlooks.shows (overlooks : stage.Overlooks D fit) :
    stage.Shows (.overlooking stage d D fit bad) where
  say _ h := h
  heard _ h := by
    refine Likeness.overlooking_of_same h ?_ ?_ ?_ ?_ ?_ ?_ <;> simp
  page_eq h := h.1
  page _ h := ⟨rfl, h.2⟩
  picture png hname hname' _ h := by
    obtain ⟨page, scope, desks, reached, reached'⟩ := h
    obtain ⟨answer, desks'⟩ := overlooks.picture png hname hname' desks
    refine ⟨?_, page, scope, desks', .screenshot reached _ png, .screenshot reached' _ png⟩
    generalize (stage.sink.storeScreenshot _ _ png).1 = r at answer ⊢
    generalize (stage.sink.storeScreenshot _ _ png).1 = r' at answer ⊢
    cases r with
    | ok stored =>
      cases r' with
      | ok stored' => exact .inl trivial
      | error e => exact answer
    | error e =>
      cases r' with
      | ok stored' => exact answer
      | error e' => exact answer
  kept _ := rfl

theorem Stage.Overlooks.admits (overlooks : stage.Overlooks D fit) (steady : stage.Steady d)
    (fatal : ∀ {e}, bad e → e.isFatal = true)
    (take : ∀ {e}, bad e → AtOnce Whatever stage.browser.takeRequests.run) :
    stage.Admits stage (.overlooking stage d D fit bad) where
  toTells := overlooks.shows.toTells
  scope_eq h := h.2.1
  begun_eq _ := .inl trivial
  scope _ h := ⟨h.1, rfl, h.2.2⟩
  begun h := h
  closes _ _ h := by
    refine Likeness.overlooking_of_same h ?_ ?_ ?_ ?_ ?_ ?_ <;> simp
  call := overlooks.shows.pairs
  settings_eq := ⟨rfl, rfl⟩
  references := rfl
  task hfit h := by
    rw [overlooks.task hfit h.2.2.1, h.2.1]
  file hfit h made hpath := overlooks.file hfit h.2.2.1 made hpath
  get key h := overlooks.get key h.2.2.1
  put key session h := by
    obtain ⟨page, scope, desks, reached, reached'⟩ := h
    obtain ⟨answer, desks'⟩ := overlooks.put key session desks
    exact ⟨answer, .inl trivial, page, scope, desks', .session reached key session,
      .session reached' key session⟩
  load id h := by
    obtain ⟨-, -, -, reached, reached'⟩ := h
    rw [steady _ reached id, steady _ reached' id]
    exact ⟨rfl, .inl trivial⟩
  shot runner runner' stack stack' timeout _ _ _ hplace hstem hstem' hstems :=
    overlooks.shows.shot hplace hstem hstem' hstems runner runner' stack stack' timeout
  pictured action r hstem hstem' hstems := overlooks.shows.captureAfter action r hstem hstem' hstems
  outcome index action name status error millis requests h := by
    rw [h.selector]
    exact .mk h.screenshot (h.logs.imp fun _ _ line => line.sameLine) h.children
  reads h := by
    cases h
    exact ⟨rfl, rfl, rfl, rfl⟩
  fatal := fatal
  take := take

/-- The desks differ at most in the pictures and records that are held in memory. -/
structure Desk.Beneath (d d' : Desk) : Prop where
  disk : d.disk = d'.disk
  sessions : d.sessions = d'.sessions
  serial : d.serial = d'.serial

/-- The store does not look at pictures and records in memory. -/
structure SessionStore.Heedless (store : SessionStore) : Prop where
  get : ∀ {d d' : Desk} (key : Session.Key), d.Beneath d' → store.get d key = store.get d' key
  put : ∀ {d d' : Desk} (key : Session.Key) (session : SavedSession), d.Beneath d' →
    (store.put d key session).1 = (store.put d' key session).1 ∧
      (store.put d key session).2.1.Beneath (store.put d' key session).2.1

theorem SessionStore.heedless_memory : SessionStore.memory.Heedless where
  get {d d'} key h := by
    show Except.ok (d.session? key) = .ok (d'.session? key)
    rw [Desk.session?, Desk.session?, h.sessions]
  put key session h := ⟨rfl, h.disk, congrArg (Desk.shelve key session) h.sessions, h.serial⟩

theorem SessionStore.putFile_of_beneath (root : Disk.Path) {d d' : Desk} (key : Session.Key)
    (session : SavedSession) (h : d.Beneath d') :
    (putFile root d key session).1 = (putFile root d' key session).1 ∧
      (putFile root d key session).2.1.Beneath (putFile root d' key session).2.1 := by
  unfold putFile
  cases checkKey key with
  | error e => exact ⟨rfl, h⟩
  | ok u =>
    simp only
    rw [h.disk, h.serial]
    split
    · exact ⟨rfl, rfl, h.sessions, rfl⟩
    split
    · exact ⟨rfl, rfl, h.sessions, rfl⟩
    split
    · exact ⟨rfl, rfl, h.sessions, rfl⟩
    · exact ⟨rfl, rfl, h.sessions, rfl⟩

theorem SessionStore.heedless_files (root : Disk.Path) : (SessionStore.files root).Heedless where
  get {d d'} key h := by
    show getFile root d key = getFile root d' key
    unfold getFile
    rw [h.disk]
  put key session h := by
    rw [files]
    exact putFile_of_beneath root key session h

/-- The resolver does not look at pictures and records in memory. -/
def ResourceResolver.Heedless (resolver : ResourceResolver) : Prop :=
  ∀ {d d' : Desk}, d.Beneath d' → resolver.resolve d = resolver.resolve d'

theorem ResourceResolver.heedless_fixed (entries : List (String × Disk.Path)) :
    (ResourceResolver.fixed entries).Heedless := fun _ => rfl

theorem ResourceResolver.resolveIn_of_beneath (root : Disk.Path) {d d' : Desk} (h : d.Beneath d') :
    resolveIn root d = resolveIn root d' := by
  funext project id
  unfold resolveIn
  rw [h.disk]

theorem ResourceResolver.heedless_folder (root : Disk.Path) :
    (ResourceResolver.folder root).Heedless := by
  intro d d' h
  simp only [folder]
  exact resolveIn_of_beneath root h

/-- On a stage that keeps its pictures in memory nobody sees what they are called. -/
theorem Stage.overlooks_of_memory (stage : Stage σ) (sink : stage.sink = .memory)
    (sessions : stage.sessions.Heedless) (resources : stage.resources.Heedless) :
    stage.Overlooks Desk.Beneath Timed.Whatever where
  refl _ := ⟨rfl, rfl, rfl⟩
  task := by
    intro d d' scope step _ h
    have haddress : stage.address d = stage.address d' := by
      funext url
      rw [Bench.address, h.disk]
      rfl
    have hpath : stage.filePath d = stage.filePath d' := by
      funext scope raw
      rw [Bench.filePath, resources h]
      rfl
    unfold Bench.task Bench.deed
    rw [haddress, hpath]
  file _ h _ _ := by
    rw [h.disk]
    exact ⟨rfl, rfl⟩
  get key h := sessions.get key h
  put key session h := sessions.put key session h
  picture png _ _ h := by
    rw [sink]
    exact ⟨trivial, h.disk, h.sessions, h.serial⟩
  record _ _ h := by
    rw [sink]
    exact ⟨h.disk, h.sessions, h.serial⟩

end Rehearsal
