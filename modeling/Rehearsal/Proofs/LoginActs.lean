import Rehearsal.Proofs.Anatomy

/-! # The acts of making sure of a login

Making sure of a login comes down to a few acts, each with its answer: the saved session is loaded, the
page visited and checked, the login scenario played, the session of the browser taken and saved, and the
page visited again; the phases are noted in between. Which acts there are, in which order, and what the
result is, depends on the answers alone.
-/
namespace Rehearsal

open Timed (Maintains Whatever)

variable {σ α β : Type}

namespace Login

/-- What a note of a phase begins with. -/
def mark : String := "🔐 "

theorem unmarked_append {line : String} (rest : String) {c : Char} {cs : List Char}
    (first : line.toList = c :: cs) (other : c ≠ '🔐') : Text.startsWith (line ++ rest) mark = false := by
  have hmark : mark.toList = ['🔐', ' '] := rfl
  simp [Text.startsWith, hmark, first, List.isPrefixOf, Ne.symm other]

/-- From one to the other the page may have changed and lines may have been said and noted, but none that
looks like a phase. -/
structure Beside (x y : World σ × Trace) : Prop where
  desk : y.1.desk = x.1.desk
  scope : y.1.scope = x.1.scope
  begun : y.1.begun = x.1.begun
  turns : y.1.turns = x.1.turns
  children : y.2.children = x.2.children
  lines : ∃ new, y.2.logs = x.2.logs ++ new ∧ ∀ line ∈ new, Text.startsWith line mark = false

namespace Beside

theorem refl (x : World σ × Trace) : Beside x x :=
  ⟨rfl, rfl, rfl, rfl, rfl, [], (List.append_nil _).symm, by simp⟩

theorem trans {x y z : World σ × Trace} (h : Beside x y) (h' : Beside y z) : Beside x z := by
  obtain ⟨new, hnew, unmarked⟩ := h.lines
  obtain ⟨new', hnew', unmarked'⟩ := h'.lines
  refine ⟨h'.desk.trans h.desk, h'.scope.trans h.scope, h'.begun.trans h.begun, h'.turns.trans h.turns,
    h'.children.trans h.children, new ++ new', by rw [hnew', hnew, List.append_assoc], ?_⟩
  intro line hline
  exact (List.mem_append.mp hline).elim (unmarked line) (unmarked' line)

theorem undisturbed (x : World σ × Trace) (t : Trace) : Undisturbed fun s => Beside x (s, t) :=
  ⟨fun _ h => ⟨h.desk, h.scope, h.begun, h.turns, h.children, h.lines⟩,
    fun _ h => ⟨h.desk, h.scope, h.begun, h.turns, h.children, h.lines⟩⟩

theorem selector (x : World σ × Trace) (selector : Option String) :
    Beside x (x.1, { x.2 with selector }) :=
  ⟨rfl, rfl, rfl, rfl, rfl, [], (List.append_nil _).symm, by simp⟩

theorem say (x : World σ × Trace) (lines : List LogLine) : Beside x (x.1.say lines, x.2) :=
  (undisturbed x x.2).say lines (refl x)

theorem note {stage : Stage σ} (place : Place) {line : String} (unmarked : Text.startsWith line mark = false)
    (x : World σ × Trace) :
    Beside x (stage.heard (.stepLog place.scenario place.depth place.index line)
      (x.1.say [.debug (place.text ++ " " ++ line)]), { x.2 with logs := x.2.logs ++ [line] }) :=
  ⟨stage.desk_heard .., stage.scope_heard .., stage.begun_heard .., stage.turns_heard .., rfl,
    [line], rfl, by simpa using unmarked⟩

end Beside

/-- Work that changes no more than that. -/
def Discreet (work : Work σ α) : Prop :=
  ∀ x : World σ × Trace, Work.Maintains (Beside x) Whatever (fun _ => True) work

namespace Discreet

variable {stage : Stage σ} {place : Place}

theorem beside {work : Work σ α} (discreet : Discreet work) {w : Watch} {x y : Clock × World σ × Trace}
    {r : Exit (Except Failure α)} (h : work.run w x.1 x.2 = (r, y)) : Beside x.2 y.2 :=
  (discreet x.2).holds (.refl _) h

theorem pure (a : α) : Discreet (pure a : Work σ α) := fun _ => .pure trivial

theorem throw (e : Failure) : Discreet (throw e : Work σ α) := fun _ => .throw trivial

theorem bind {work : Work σ α} {f : α → Work σ β} (hx : Discreet work) (hf : ∀ a, Discreet (f a)) :
    Discreet (work >>= f) := fun x => .bind (hx x) fun a _ => hf a x

theorem setSelector (selector : String) : Discreet (Work.setSelector selector : Work σ Unit) :=
  fun _ => .liftSecond (.modifySecond fun s t h => h.trans (.selector (s, t) _))

theorem say (lines : List LogLine) : Discreet (Work.say lines : Work σ Unit) :=
  fun x => .lift fun t => maintains_say (Beside.undisturbed x t) lines

theorem note {line : String} (unmarked : Text.startsWith line mark = false) :
    Discreet (Work.note stage place line) := by
  intro x w c y hy
  obtain ⟨s, t⟩ := y
  show Timed.Ended _ _ _ _ ((Work.note stage place line).run w c (s, t))
  rw [Work.note_run]
  exact ⟨.refl c, hy.trans (.note place unmarked (s, t)), trivial⟩

theorem ask (call : Call σ (Answer α)) : Discreet (Work.ask call) := by
  refine fun x => .ofWorld fun t => .bind (maintains_call (Beside.undisturbed x t) call) fun r _ => ?_
  cases r with
  | ok a => exact .pure trivial
  | error fault => exact .pure trivial

end Discreet

variable (stage : Stage σ) (place : Place)

theorem discreet_load (stateName : String) : Discreet (load stage place stateName) := by
  refine (Discreet.setSelector _).bind fun _ => ?_
  refine Discreet.bind (fun x => .ofWorld fun t => .read fun c s _ => ?_) fun found => ?_
  · cases stage.sessions.get s.desk (key stage stateName) with
    | ok session => exact trivial
    | error e => exact trivial
  · cases found with
    | none =>
      refine (Discreet.note ?_).bind fun _ => .pure _
      rw [String.append_assoc]
      exact unmarked_append _ rfl (by decide)
    | some session =>
      refine (Discreet.ask _).bind fun _ => (Discreet.say _).bind fun _ => ?_
      exact (Discreet.note (unmarked_append _ rfl (by decide))).bind fun _ => .pure _

theorem discreet_visit (url : String) (timeout : Nat) : Discreet (visit stage url timeout) := by
  refine fun x => .ofWorld fun t =>
    .bind (.within (maintains_call (Beside.undisturbed x t) _)) fun r _ => ?_
  rcases r with _ | fault | _
  · exact .pure trivial
  · exact .pure trivial
  · exact .pure trivial

theorem discreet_check (login : LoginTask) (timeout : Nat) : Discreet (check stage place login timeout) := by
  refine (Discreet.ask _).bind fun current => ?_
  simp only
  split
  · exact (Discreet.note (unmarked_append _ rfl (by decide))).bind fun _ => .pure _
  split
  · exact .pure _
  · refine Discreet.bind (fun x => .lift fun t => (maintains_locate ((Beside.undisturbed x t).keeps _)
      (P := fun _ => True) (fun _ _ => trivial) _ _ _).whatever) fun r => ?_
    cases r with
    | ok located => exact (Discreet.note (unmarked_append _ rfl (by decide))).bind fun _ => .pure _
    | error e =>
      cases e with
      | elementNotFound tried detail => exact (Discreet.note (by decide)).bind fun _ => .pure _
      | _ => exact .throw _

/-- What became of the loading of a session: the store failed, or it had none, or the one it had was
restored, well or not. -/
inductive Loaded (stage : Stage σ) (key : Session.Key) (w : Watch) (x y : Clock × World σ × Trace) :
    Except Failure Bool → Prop
  | unread {e : Failure} (get : stage.sessions.get x.2.1.desk key = .error e) (clock : y.1 = x.1)
    (page : y.2.1.page = x.2.1.page) : Loaded stage key w x y (.error e)
  | missing (get : stage.sessions.get x.2.1.desk key = .ok none) (clock : y.1 = x.1)
    (page : y.2.1.page = x.2.1.page) : Loaded stage key w x y (.ok false)
  | restored {session : SavedSession} (answer : Answer Unit) {s : World σ}
    (get : stage.sessions.get x.2.1.desk key = .ok (some session))
    (ran : (stage.browser.restore session).run w x.1 x.2.1 = (.done answer, y.1, s))
    (page : y.2.1.page = s.page) :
    Loaded stage key w x y ((answer.map fun _ => true).mapError .browser)

section

variable {stage : Stage σ} {place : Place}

theorem get_run (key : Session.Key) (w : Watch) (c : Clock) (x : World σ × Trace) :
    (Work.ofWorld (do return stage.sessions.get (← Timed.desk) key)).run w c x =
      (.done (stage.sessions.get x.1.desk key), c, x) := rfl

theorem loaded_of_load {stateName : String} {w : Watch} {x y : Clock × World σ × Trace}
    {r : Except Failure Bool} (h : (load stage place stateName).run w x.1 x.2 = (.done r, y)) :
    Loaded stage (key stage stateName) w x y r := by
  obtain ⟨c, s, t⟩ := x
  obtain ⟨c', s', t'⟩ := y
  obtain ⟨_, _, _, ⟨⟩, h⟩ | ⟨e, ⟨⟩, -⟩ := Work.done_of_bind h
  obtain ⟨found, c₂, ⟨s₂, t₂⟩, hfound, h⟩ | ⟨e, hfound, rfl⟩ :=
    Work.done_of_bind (x := (s, { t with selector := some ("load_auth_state:" ++ stateName) })) h
  case inr =>
    rw [get_run] at hfound
    obtain ⟨get, hsame⟩ := Prod.mk.inj hfound
    cases hsame
    exact .unread (Exit.done.inj get) rfl rfl
  rw [get_run] at hfound
  obtain ⟨get, hsame⟩ := Prod.mk.inj hfound
  cases hsame
  cases found with
  | none =>
    obtain ⟨z, -, page, h⟩ := Work.goes_of_note h
    cases h
    exact .missing (Exit.done.inj get) rfl page
  | some session =>
    obtain ⟨_, c₃, ⟨s₃, t₃⟩, hask, h⟩ | ⟨e, hask, rfl⟩ := Work.done_of_bind h
    · obtain ⟨ran, -⟩ := Work.answer_of_ask hask
      obtain ⟨z, -, page, h⟩ := Work.goes_of_say stage place h
      obtain ⟨z', -, page', h⟩ := Work.goes_of_note h
      cases h
      exact .restored (.ok ()) (Exit.done.inj get) ran (page'.trans page)
    · obtain ⟨hask, -⟩ := Timed.done_of_onFirst hask
      obtain ⟨answer, c₄, s₄, ran, hask⟩ := Timed.done_of_bind hask
      cases answer with
      | ok _ => cases hask
      | error fault =>
        cases hask
        exact .restored (.error fault) (Exit.done.inj get) ran rfl

end

/-- What is done to make sure of a login, with what it came to. -/
inductive Act where
  | enters (phase : Phase)
  | loads (answer : Except Failure Bool)
  | visits (answer : Except Failure Unit)
  | checks (answer : Except Failure Bool)
  | plays (answer : Except Failure Report)
  | snapshots (answer : Except Failure SavedSession)
  | puts (key : Session.Key) (session : SavedSession) (answer : Except Failure Unit)

/-- What the playing of the login scenario means for the one who had it played. -/
def settled (scenario : String) (answer : Except Failure Report) : Except Failure Unit :=
  answer >>= (·.settle scenario)

/-- The trace with the outcomes of a scenario that was played. -/
def witnessed (t : Trace) : Except Failure Report → Trace
  | .ok report => { t with children := t.children ++ report.outcomes }
  | .error _ => t

section

variable (runner : Runner σ) (stack : CallStack) (login : LoginTask) (timeout : Nat) (w : Watch)

/-- An act is done between two moments. Only the playing and the putting may touch the desk. -/
inductive Does : Act → Clock × World σ × Trace → Clock × World σ × Trace → Prop
  | enters {phase : Phase} {x y : Clock × World σ × Trace}
    (ran : (enter stage place phase).run w x.1 x.2 = (.done (.ok ()), y)) : Does (.enters phase) x y
  | loads {answer : Except Failure Bool} {x y : Clock × World σ × Trace}
    (ran : (load stage place login.stateName).run w x.1 x.2 = (.done answer, y)) (beside : Beside x.2 y.2) :
    Does (.loads answer) x y
  | visits {answer : Except Failure Unit} {x y : Clock × World σ × Trace}
    (ran : (visit stage login.checkUrl timeout).run w x.1 x.2 = (.done answer, y)) (beside : Beside x.2 y.2) :
    Does (.visits answer) x y
  | checks {answer : Except Failure Bool} {x y : Clock × World σ × Trace}
    (ran : (check stage place login timeout).run w x.1 x.2 = (.done answer, y)) (beside : Beside x.2 y.2) :
    Does (.checks answer) x y
  | plays {answer : Except Failure Report} {c c' : Clock} {s s' : World σ} {t : Trace}
    (ran : runner login.loginScenario stack place.depth w c s = (.done answer, c', s')) :
    Does (.plays answer) (c, s, t) (c', s', witnessed t answer)
  | snapshots {answer : Answer SavedSession} {c c' : Clock} {s s' : World σ} {t : Trace}
    (ran : stage.browser.snapshot.run w c s = (.done answer, c', s')) (beside : Beside (s, t) (s', t)) :
    Does (.snapshots (answer.mapError .browser)) (c, s, t) (c', s', t)
  | puts {key : Session.Key} {session : SavedSession} {answer : Except Failure Unit} {desk : Desk}
    {lines : List LogLine} {c : Clock} {s : World σ} {t : Trace}
    (put : stage.sessions.put s.desk key session = (answer, desk, lines)) :
    Does (.puts key session answer) (c, s, t) (c, { s with desk }.say lines, t)

/-- Nothing but lines and a selector between one act and the next. -/
structure Idle (x y : Clock × World σ × Trace) : Prop where
  clock : y.1 = x.1
  page : y.2.1.page = x.2.1.page
  beside : Beside x.2 y.2

/-- These acts one after another, and nothing else, lead from `x` to `y`. -/
inductive Happens : List Act → Clock × World σ × Trace → Clock × World σ × Trace → Prop
  | nil (x : Clock × World σ × Trace) : Happens [] x x
  | act {a : Act} {acts : List Act} {x y z : Clock × World σ × Trace}
    (does : Does stage place runner stack login timeout w a x y) (rest : Happens acts y z) :
    Happens (a :: acts) x z
  | idle {acts : List Act} {x y z : Clock × World σ × Trace} (idle : Idle x y) (rest : Happens acts y z) :
    Happens acts x z

end

variable {stage : Stage σ} {place : Place} {runner : Runner σ} {stack : CallStack} {login : LoginTask}
  {timeout : Nat} {w : Watch}

namespace Happens

variable {x y z : Clock × World σ × Trace} {acts acts' : List Act}

theorem append (h : Happens stage place runner stack login timeout w acts x y)
    (h' : Happens stage place runner stack login timeout w acts' y z) :
    Happens stage place runner stack login timeout w (acts ++ acts') x z := by
  induction h with
  | nil => exact h'
  | act does _ ih => exact .act does (ih h')
  | idle idle _ ih => exact .idle idle (ih h')

theorem single {a : Act} (does : Does stage place runner stack login timeout w a x y) :
    Happens stage place runner stack login timeout w [a] x y := .act does (.nil y)

theorem ofIdle (idle : Idle x y) : Happens stage place runner stack login timeout w [] x y :=
  .idle idle (.nil y)

/-- Acts that came one after another came first the ones and then the others. -/
theorem split (h : Happens stage place runner stack login timeout w (acts ++ acts') x z) :
    ∃ y, Happens stage place runner stack login timeout w acts x y ∧
      Happens stage place runner stack login timeout w acts' y z := by
  generalize hall : acts ++ acts' = all at h
  induction h generalizing acts with
  | nil x =>
    obtain ⟨rfl, rfl⟩ := List.append_eq_nil_iff.mp hall
    exact ⟨x, .nil x, .nil x⟩
  | @act a rest x y z does happens ih =>
    cases acts with
    | nil =>
      subst hall
      exact ⟨x, .nil x, .act does happens⟩
    | cons b acts =>
      obtain ⟨rfl, rfl⟩ := List.cons.inj hall
      obtain ⟨y', first, second⟩ := ih rfl
      exact ⟨y', .act does first, second⟩
  | @idle rest x y z idle happens ih =>
    obtain ⟨y', first, second⟩ := ih hall
    exact ⟨y', .idle idle first, second⟩

end Happens

theorem Idle.refl (x : Clock × World σ × Trace) : Idle x x := ⟨rfl, rfl, .refl _⟩

theorem Idle.trans {x y z : Clock × World σ × Trace} (h : Idle x y) (h' : Idle y z) : Idle x z :=
  ⟨h'.clock.trans h.clock, h'.page.trans h.page, h.beside.trans h'.beside⟩

/-- Nothing but lines comes before the first act. -/
theorem Happens.first {a : Act} {acts : List Act} {x z : Clock × World σ × Trace}
    (h : Happens stage place runner stack login timeout w (a :: acts) x z) :
    ∃ x' y, Idle x x' ∧ Does stage place runner stack login timeout w a x' y ∧
      Happens stage place runner stack login timeout w acts y z := by
  generalize hall : a :: acts = all at h
  induction h with
  | nil => cases hall
  | @act b rest x y z does happens ih =>
    cases hall
    exact ⟨x, y, .refl x, does, happens⟩
  | idle idle _ ih =>
    obtain ⟨x', y, idle', does, happens⟩ := ih hall
    exact ⟨x', y, idle.trans idle', does, happens⟩

/-- The acts that leave the desk as it is. -/
def Act.spares : Act → Bool
  | .plays _ | .puts .. => false
  | _ => true

def phases : List Act → List Phase :=
  List.filterMap fun
    | .enters phase => some phase
    | _ => none

/-- The acts besides the notes of the phases. -/
def deeds : List Act → List Act :=
  List.filter fun
    | .enters _ => false
    | _ => true

/-- The phases among the lines of a step. -/
def marked (t : Trace) : List String := t.logs.filter (Text.startsWith · mark)

theorem Beside.marked {x y : World σ × Trace} (h : Beside x y) : marked y.2 = marked x.2 := by
  obtain ⟨new, hnew, unmarked⟩ := h.lines
  have hnone : new.filter (Text.startsWith · mark) = [] := by
    rw [List.filter_eq_nil_iff]
    intro line hline
    simp [unmarked line hline]
  unfold Login.marked
  rw [hnew, List.filter_append, hnone, List.append_nil]

theorem marked_phase (phase : Phase) : Text.startsWith ("🔐 " ++ phase.text) mark = true := by
  cases phase <;> decide

theorem enter_run (phase : Phase) (c : Clock) (s : World σ) (t : Trace) :
    (enter stage place phase).run w c (s, t) =
      (.done (.ok ()), c, stage.heard (.stepLog place.scenario place.depth place.index ("🔐 " ++ phase.text))
        (s.say [.debug (place.text ++ " " ++ ("🔐 " ++ phase.text))]),
        { t with logs := t.logs ++ ["🔐 " ++ phase.text] }) := Work.note_run ..

theorem Happens.marked {x y : Clock × World σ × Trace} {acts : List Act}
    (h : Happens stage place runner stack login timeout w acts x y) :
    Login.marked y.2.2 = Login.marked x.2.2 ++ (phases acts).map fun phase => "🔐 " ++ phase.text := by
  induction h with
  | nil x => simp [phases]
  | @act a acts x y z does rest ih =>
    rw [ih]
    cases does with
    | @enters phase x y ran =>
      obtain ⟨c, s, t⟩ := x
      rw [enter_run] at ran
      cases ran
      simp [Login.marked, phases, marked_phase]
    | loads ran beside => rw [beside.marked]; rfl
    | visits ran beside => rw [beside.marked]; rfl
    | checks ran beside => rw [beside.marked]; rfl
    | @plays answer c c' s s' t ran => cases answer <;> rfl
    | snapshots ran beside => rfl
    | puts put => rfl
  | idle idle _ ih => rw [ih, idle.beside.marked]

theorem Happens.desk {x y : Clock × World σ × Trace} {acts : List Act}
    (h : Happens stage place runner stack login timeout w acts x y) (spares : ∀ a ∈ acts, a.spares = true) :
    y.2.1.desk = x.2.1.desk := by
  induction h with
  | nil => rfl
  | @act a acts x y z does rest ih =>
    obtain ⟨ha, hrest⟩ := List.forall_mem_cons.mp spares
    refine (ih hrest).trans ?_
    cases does with
    | @enters phase x y ran =>
      obtain ⟨c, s, t⟩ := x
      rw [enter_run] at ran
      cases ran
      exact stage.desk_heard ..
    | loads ran beside => exact beside.desk
    | visits ran beside => exact beside.desk
    | checks ran beside => exact beside.desk
    | plays ran => cases ha
    | snapshots ran beside => exact beside.desk
    | puts put => cases ha
  | idle idle _ ih => exact (ih spares).trans idle.beside.desk

/-- The acts before it is known whether one is logged in. -/
def seeking (restored : Bool) : List Act := [.enters .checking, .loads (.ok restored), .visits (.ok ())]

/-- The acts up to the playing of the login scenario. -/
def playing (restored : Bool) (answer : Except Failure Report) : List Act :=
  seeking restored ++ [.checks (.ok false), .enters .loggingIn, .plays answer]

/-- All the ways to make sure of a login, and the result of each. -/
inductive Course (key : Session.Key) (scenario : String) : List Act → Except Failure Unit → Prop
  | unloaded (e : Failure) : Course key scenario [.enters .checking, .loads (.error e)] (.error e)
  | unvisited (restored : Bool) (e : Failure) :
    Course key scenario [.enters .checking, .loads (.ok restored), .visits (.error e)] (.error e)
  | unchecked (restored : Bool) (e : Failure) :
    Course key scenario (seeking restored ++ [.checks (.error e)]) (.error e)
  | found (restored : Bool) :
    Course key scenario (seeking restored ++ [.checks (.ok true), .enters .authenticated]) (.ok ())
  | broken {restored : Bool} {answer : Except Failure Report} {e : Failure}
    (fails : settled scenario answer = .error e) (ends : e.isFatal = true ∨ e = .cancelled) :
    Course key scenario (playing restored answer) (.error e)
  | failed {restored : Bool} {answer : Except Failure Report} {e : Failure}
    (fails : settled scenario answer = .error e) (mild : ¬(e.isFatal = true ∨ e = .cancelled)) :
    Course key scenario (playing restored answer ++ [.enters .failed]) (.error (.login scenario e.message))
  | unshot {restored : Bool} {report : Report} (settles : report.settle scenario = .ok ())
    (fault : BrowserFault) :
    Course key scenario (playing restored (.ok report) ++ [.snapshots (.error (.browser fault))])
      (.error (.browser fault))
  | unsaved {restored : Bool} {report : Report} (settles : report.settle scenario = .ok ())
    (session : SavedSession) (e : Failure) :
    Course key scenario
      (playing restored (.ok report) ++ [.snapshots (.ok session), .puts key session (.error e)]) (.error e)
  | unreturned {restored : Bool} {report : Report} (settles : report.settle scenario = .ok ())
    (session : SavedSession) {e : Failure} (own : ∀ id reason, e ≠ .login id reason) :
    Course key scenario
      (playing restored (.ok report) ++ [.snapshots (.ok session), .puts key session (.ok ()),
        .visits (.error e)]) (.error e)
  | loggedIn {restored : Bool} {report : Report} (settles : report.settle scenario = .ok ())
    (session : SavedSession) :
    Course key scenario
      (playing restored (.ok report) ++ [.snapshots (.ok session), .puts key session (.ok ()),
        .visits (.ok ()), .enters .authenticated]) (.ok ())

/-- A visit that fails does so by a fault of the browser or for want of time. -/
theorem not_login_of_visit {url : String} {c c' : Clock} {x y : World σ × Trace} {e : Failure}
    (h : (visit stage url timeout).run w c x = (.done (.error e), c', y)) (id reason : String) :
    e ≠ .login id reason := by
  obtain ⟨s, t⟩ := x
  obtain ⟨h, -⟩ := Timed.done_of_onFirst h
  obtain ⟨r, c₁, s₁, -, h⟩ := Timed.done_of_bind h
  rcases r with _ | fault | _
  · cases h
    simp
  · cases h
    simp
  · cases h

section

variable {x y : Clock × World σ × Trace}

theorem idle_of_note {line : String} (unmarked : Text.startsWith line mark = false) {f : Unit → Work σ β}
    {r : Except Failure β} (h : (Work.note stage place line >>= f).run w x.1 x.2 = (.done r, y)) :
    ∃ z, Idle x z ∧ (f ()).run w z.1 z.2 = (.done r, y) := by
  obtain ⟨c, s, t⟩ := x
  rcases Work.done_of_bind h with ⟨_, c₁, x₁, hwork, hrest⟩ | ⟨e, hwork, -⟩
  · rw [Work.note_run] at hwork
    refine ⟨(c₁, x₁), ?_, hrest⟩
    rw [← (Prod.mk.inj hwork).2]
    exact ⟨rfl, stage.page_heard .., .note place unmarked (s, t)⟩
  · rw [Work.note_run] at hwork
    cases hwork

theorem idle_of_say {lines : List LogLine} {f : Unit → Work σ β} {r : Except Failure β}
    (h : (Work.say lines >>= f).run w x.1 x.2 = (.done r, y)) :
    ∃ z, Idle x z ∧ (f ()).run w z.1 z.2 = (.done r, y) :=
  ⟨(x.1, x.2.1.say lines, x.2.2), ⟨rfl, rfl, .say x.2 lines⟩, h⟩

theorem idle_of_setSelector {selector : String} {r : Except Failure Unit}
    (h : (Work.setSelector selector : Work σ Unit).run w x.1 x.2 = (.done r, y)) : r = .ok () ∧ Idle x y := by
  cases h
  exact ⟨rfl, rfl, rfl, .selector x.2 (some selector)⟩

/-- What saving a session does at the desk. -/
def keep (stage : Stage σ) (key : Session.Key) (session : SavedSession) :
    Timed (World σ) (Except Failure Unit) := do
  let (answer, desk, lines) := stage.sessions.put (← Timed.desk) key session
  Timed.setDesk desk
  Timed.say lines
  return answer

theorem keep_apply {key : Session.Key} {session : SavedSession} {c : Clock} {s : World σ}
    {answer : Except Failure Unit} {desk : Desk} {lines : List LogLine}
    (put : stage.sessions.put s.desk key session = (answer, desk, lines)) :
    keep stage key session w c s = (.done answer, c, { s with desk }.say lines) := by
  unfold keep
  rw [Timed.bind_of_done (Timed.desk_apply ..), put]
  rfl

variable (stage place runner stack login timeout)

theorem done_of_enter {phase : Phase} {f : Unit → Work σ β} {r : Except Failure β}
    (h : (enter stage place phase >>= f).run w x.1 x.2 = (.done r, y)) :
    ∃ z, Does stage place runner stack login timeout w (.enters phase) x z ∧
      (f ()).run w z.1 z.2 = (.done r, y) := by
  rcases Work.done_of_bind h with ⟨_, c₁, x₁, hwork, h⟩ | ⟨e, hwork, -⟩
  · exact ⟨(c₁, x₁), .enters hwork, h⟩
  · obtain ⟨c, s, t⟩ := x
    rw [enter_run] at hwork
    cases hwork

/-- A first act that may fail was over, and then the rest; or it failed. -/
theorem done_of_act {work : Work σ α} {f : α → Work σ β} {r : Except Failure β} (a : Except Failure α → Act)
    (does : ∀ {answer y}, work.run w x.1 x.2 = (.done answer, y) →
      Does stage place runner stack login timeout w (a answer) x y)
    (h : (work >>= f).run w x.1 x.2 = (.done r, y)) :
    (∃ b z, Does stage place runner stack login timeout w (a (.ok b)) x z ∧
        (f b).run w z.1 z.2 = (.done r, y)) ∨
      ∃ e, r = .error e ∧ work.run w x.1 x.2 = (.done (.error e), y) ∧
        Does stage place runner stack login timeout w (a (.error e)) x y := by
  rcases Work.done_of_bind h with ⟨b, c₁, x₁, hwork, h⟩ | ⟨e, hwork, rfl⟩
  · exact .inl ⟨b, (c₁, x₁), does hwork, h⟩
  · exact .inr ⟨e, rfl, hwork, does hwork⟩

theorem done_of_load {f : Bool → Work σ β} {r : Except Failure β}
    (h : (load stage place login.stateName >>= f).run w x.1 x.2 = (.done r, y)) :
    (∃ restored z, Does stage place runner stack login timeout w (.loads (.ok restored)) x z ∧
        (f restored).run w z.1 z.2 = (.done r, y)) ∨
      ∃ e, r = .error e ∧ Does stage place runner stack login timeout w (.loads (.error e)) x y := by
  rcases done_of_act stage place runner stack login timeout .loads
    (fun hload => .loads hload ((discreet_load stage place _).beside hload)) h with loaded | ⟨e, hr, -, loads⟩
  · exact .inl loaded
  · exact .inr ⟨e, hr, loads⟩

theorem done_of_visit {f : Unit → Work σ β} {r : Except Failure β}
    (h : (visit stage login.checkUrl timeout >>= f).run w x.1 x.2 = (.done r, y)) :
    (∃ z, Does stage place runner stack login timeout w (.visits (.ok ())) x z ∧
        (f ()).run w z.1 z.2 = (.done r, y)) ∨
      ∃ e, r = .error e ∧ Does stage place runner stack login timeout w (.visits (.error e)) x y ∧
        ∀ id reason, e ≠ .login id reason := by
  rcases done_of_act stage place runner stack login timeout .visits
    (fun hvisit => .visits hvisit ((discreet_visit stage _ _).beside hvisit)) h with
    ⟨_, visited⟩ | ⟨e, hr, hvisit, visits⟩
  · exact .inl visited
  · exact .inr ⟨e, hr, visits, not_login_of_visit hvisit⟩

theorem done_of_check {f : Bool → Work σ β} {r : Except Failure β}
    (h : (check stage place login timeout >>= f).run w x.1 x.2 = (.done r, y)) :
    (∃ loggedIn z, Does stage place runner stack login timeout w (.checks (.ok loggedIn)) x z ∧
        (f loggedIn).run w z.1 z.2 = (.done r, y)) ∨
      ∃ e, r = .error e ∧ Does stage place runner stack login timeout w (.checks (.error e)) x y := by
  rcases done_of_act stage place runner stack login timeout .checks
    (fun hcheck => .checks hcheck ((discreet_check stage place _ _).beside hcheck)) h with
    checked | ⟨e, hr, -, checks⟩
  · exact .inl checked
  · exact .inr ⟨e, hr, checks⟩

theorem done_of_snapshot {f : SavedSession → Work σ β} {r : Except Failure β}
    (h : (Work.ask stage.browser.snapshot >>= f).run w x.1 x.2 = (.done r, y)) :
    (∃ session z, Does stage place runner stack login timeout w (.snapshots (.ok session)) x z ∧
        (f session).run w z.1 z.2 = (.done r, y)) ∨
      ∃ fault, r = .error (.browser fault) ∧
        Does stage place runner stack login timeout w (.snapshots (.error (.browser fault))) x y := by
  have discreet : Discreet (Work.ask stage.browser.snapshot) := Discreet.ask _
  obtain ⟨c, s, t⟩ := x
  obtain ⟨c', s', t'⟩ := y
  rcases Work.done_of_bind h with ⟨session, c₁, ⟨s₁, t₁⟩, hask, hrest⟩ | ⟨e, hask, rfl⟩
  · have beside := discreet.beside hask
    obtain ⟨hcall, ht⟩ := Work.answer_of_ask hask
    simp only at ht
    subst ht
    exact .inl ⟨session, (c₁, s₁, t₁), .snapshots hcall beside, hrest⟩
  · have beside := discreet.beside hask
    obtain ⟨hask, ht⟩ := Timed.done_of_onFirst hask
    obtain ⟨answer, c₁, s₁, hcall, hask⟩ := Timed.done_of_bind hask
    simp only at ht
    subst ht
    cases answer with
    | ok session => cases hask
    | error fault =>
      cases hask
      exact .inr ⟨fault, rfl, .snapshots hcall beside⟩

theorem done_of_put {key : Session.Key} {session : SavedSession} {f : Unit → Work σ β} {r : Except Failure β}
    (h : (Work.ofWorld (keep stage key session) >>= f).run w x.1 x.2 = (.done r, y)) :
    (∃ z, Does stage place runner stack login timeout w (.puts key session (.ok ())) x z ∧
        (f ()).run w z.1 z.2 = (.done r, y)) ∨
      ∃ e, r = .error e ∧ Does stage place runner stack login timeout w (.puts key session (.error e)) x y := by
  obtain ⟨c, s, t⟩ := x
  obtain ⟨c', y⟩ := y
  rcases put : stage.sessions.put s.desk key session with ⟨answer, desk, lines⟩
  have ran : (Work.ofWorld (keep stage key session)).run w c (s, t) =
      (.done answer, c, { s with desk }.say lines, t) :=
    Timed.onFirst_of_done (keep_apply (w := w) (c := c) put) t
  rcases Work.done_of_bind h with ⟨_, c₁, x₁, hput, hrest⟩ | ⟨e, hput, rfl⟩
  · rw [ran] at hput
    cases hput
    exact .inl ⟨_, .puts put, hrest⟩
  · rw [ran] at hput
    cases hput
    exact .inr ⟨e, rfl, .puts put⟩

/-- To save the session is to take that of the browser, and to put it. -/
theorem done_of_save {r : Except Failure Unit}
    (h : (save stage place login.stateName).run w x.1 x.2 = (.done r, y)) :
    (∃ fault, r = .error (.browser fault) ∧
        Happens stage place runner stack login timeout w [.snapshots (.error (.browser fault))] x y) ∨
      ∃ session, Happens stage place runner stack login timeout w
        [.snapshots (.ok session), .puts (key stage login.stateName) session r] x y := by
  rcases done_of_snapshot stage place runner stack login timeout h with
    ⟨session, z, snapshots, h⟩ | ⟨fault, rfl, snapshots⟩
  · refine .inr ⟨session, ?_⟩
    rcases done_of_put stage place runner stack login timeout h with ⟨z₁, puts, h⟩ | ⟨e, rfl, puts⟩
    · obtain ⟨z₂, idle₂, h⟩ := idle_of_say h
      obtain ⟨z₃, idle₃, h⟩ := idle_of_note (unmarked_append _ rfl (by decide)) h
      obtain ⟨rfl, idle₄⟩ := idle_of_setSelector h
      exact .act snapshots (.act puts (.idle idle₂ (.idle idle₃ (.ofIdle idle₄))))
    · exact .act snapshots (.single puts)
  · exact .inl ⟨fault, rfl, .single snapshots⟩

/-- To have the login scenario played is to play it, and to settle its report. -/
theorem does_of_perform {r : Except Failure Unit}
    (h : (perform runner place stack login.loginScenario).run w x.1 x.2 = (.done r, y)) :
    ∃ answer, r = settled login.loginScenario answer ∧
      Does stage place runner stack login timeout w (.plays answer) x y := by
  obtain ⟨c, s, t⟩ := x
  obtain ⟨c', s', t'⟩ := y
  obtain ⟨e, rfl, ht, hrunner⟩ | ⟨report, rfl, ht, hrunner⟩ := Play.answer_of_perform h
  · simp only at ht
    subst ht
    exact ⟨.error e, rfl, .plays hrunner⟩
  · simp only at ht
    subst ht
    exact ⟨.ok report, rfl, .plays hrunner⟩

/-- What is done after the login scenario was played to a good end. -/
theorem course_of_success {restored : Bool} {report : Report} {x₀ : Clock × World σ × Trace}
    (before : Happens stage place runner stack login timeout w (playing restored (.ok report)) x₀ x)
    (settles : report.settle login.loginScenario = .ok ()) {r : Except Failure Unit}
    (h : (do
        save stage place login.stateName
        visit stage login.checkUrl timeout
        enter stage place .authenticated
        Work.setSelector ("ensure_auth:" ++ login.stateName ++ ":logged_in") : Work σ Unit).run w x.1 x.2 =
      (.done r, y)) :
    ∃ acts, Happens stage place runner stack login timeout w acts x₀ y ∧
      Course (key stage login.stateName) login.loginScenario acts r := by
  rcases Work.done_of_bind h with ⟨_, c₁, x₁, hsave, h⟩ | ⟨e, hsave, rfl⟩
  case inr =>
    rcases done_of_save stage place runner stack login timeout hsave with ⟨fault, hr, saves⟩ | ⟨session, saves⟩
    · cases hr
      exact ⟨_, before.append saves, .unshot settles fault⟩
    · exact ⟨_, before.append saves, .unsaved settles session e⟩
  rcases done_of_save stage place runner stack login timeout (y := (c₁, x₁)) hsave with
    ⟨fault, ⟨⟩, -⟩ | ⟨session, saves⟩
  rcases done_of_visit stage place runner stack login timeout (x := (c₁, x₁)) h with
    ⟨z, visits, h⟩ | ⟨e, rfl, visits, own⟩
  case inr => exact ⟨_, before.append (saves.append (.single visits)), .unreturned settles session own⟩
  obtain ⟨z₁, enters, h⟩ := done_of_enter stage place runner stack login timeout h
  obtain ⟨rfl, idle⟩ := idle_of_setSelector h
  exact ⟨_, before.append (saves.append (.act visits (.act enters (.ofIdle idle)))), .loggedIn settles session⟩

/-- Whenever it was made sure of a login, or that failed, this was one of its courses. -/
theorem course_of_done {r : Except Failure Unit}
    (h : (ensure stage runner place stack login timeout).run w x.1 x.2 = (.done r, y)) :
    ∃ acts, Happens stage place runner stack login timeout w acts x y ∧
      Course (key stage login.stateName) login.loginScenario acts r := by
  obtain ⟨x₁, checking, h⟩ := done_of_enter stage place runner stack login timeout h
  rcases done_of_load stage place runner stack login timeout h with ⟨restored, x₂, loads, h⟩ | ⟨e, rfl, loads⟩
  case inr => exact ⟨_, .act checking (.single loads), .unloaded e⟩
  rcases done_of_visit stage place runner stack login timeout h with ⟨x₃, visits, h⟩ | ⟨e, rfl, visits, -⟩
  case inr => exact ⟨_, .act checking (.act loads (.single visits)), .unvisited restored e⟩
  have seeks : Happens stage place runner stack login timeout w (seeking restored) x x₃ :=
    .act checking (.act loads (.single visits))
  rcases done_of_check stage place runner stack login timeout h with
    ⟨loggedIn, x₄, checks, h⟩ | ⟨e, rfl, checks⟩
  case inr => exact ⟨_, seeks.append (.single checks), .unchecked restored e⟩
  cases loggedIn with
  | true =>
    obtain ⟨x₅, enters, h⟩ := done_of_enter stage place runner stack login timeout h
    obtain ⟨rfl, idle⟩ := idle_of_setSelector h
    exact ⟨_, seeks.append (.act checks (.act enters (.ofIdle idle))), .found restored⟩
  | false =>
    obtain ⟨x₅, enters, h⟩ := done_of_enter stage place runner stack login timeout h
    obtain ⟨x₆, idle, h⟩ := idle_of_say h
    obtain ⟨r', c₇, x₇, hlogin, h⟩ | ⟨e, hlogin, -⟩ := Work.done_of_bind h
    case inr =>
      obtain ⟨r', hr, -⟩ := Work.done_of_try hlogin
      cases hr
    obtain ⟨_, ⟨⟩, performed⟩ := Work.done_of_try hlogin
    obtain ⟨answer, hanswer, plays⟩ := does_of_perform stage place runner stack login timeout
      (y := (c₇, x₇)) performed
    have played : Happens stage place runner stack login timeout w (playing restored answer) x (c₇, x₇) :=
      seeks.append (.act checks (.act enters (.idle idle (.single plays))))
    -- The answer of the scenario decides: given back as it is, turned into a failed login, or gone on from.
    cases r' with
    | error e =>
      simp only at h
      split at h
      · rename_i ends
        cases h
        exact ⟨_, played, .broken hanswer.symm (by simpa using ends)⟩
      · rename_i mild
        obtain ⟨x₈, enters, h⟩ := done_of_enter stage place runner stack login timeout (x := (c₇, x₇)) h
        obtain ⟨x₉, idle, h⟩ := idle_of_say h
        have hy : x₉ = y := (Prod.mk.inj h).2
        cases (Prod.mk.inj h).1
        subst hy
        exact ⟨_, played.append (.act enters (.ofIdle idle)), .failed hanswer.symm (by simpa using mild)⟩
    | ok u =>
      cases answer with
      | error e => cases hanswer
      | ok report =>
        exact course_of_success stage place runner stack login timeout (x := (c₇, x₇)) played hanswer.symm h

/-- In a run that is not cancelled it comes to its end, by one of the courses. -/
theorem course_of_calm {c : Clock} {s : World σ} {t : Trace}
    (ends : Maintains (fun _ => True) Whatever (runner login.loginScenario stack place.depth))
    (free : w.deadline = none)
    (calm : ((ensure stage runner place stack login timeout).run w c (s, t)).2.1.isCancelled = false) :
    ∃ r y acts, (ensure stage runner place stack login timeout).run w c (s, t) = (.done r, y) ∧
      Happens stage place runner stack login timeout w acts (c, s, t) y ∧
      Course (key stage login.stateName) login.loginScenario acts r := by
  have maintains : Work.Maintains (fun _ => True) Whatever (fun _ => True)
      (ensure stage runner place stack login timeout) :=
    maintains_ensure stage.lasting_true.toStable stage.tolerates_true
      (ends.mono fun answer _ => by cases answer <;> simp [Blames, Answers]) timeout
  rcases hran : (ensure stage runner place stack login timeout).run w c (s, t) with ⟨exit, y⟩
  rw [hran] at calm
  obtain ⟨r, rfl, -⟩ := maintains.ends trivial hran free calm
  obtain ⟨acts, happens, course⟩ :=
    course_of_done stage place runner stack login timeout (x := (c, s, t)) hran
  exact ⟨r, y, acts, rfl, happens, course⟩

end

end Login

end Rehearsal
