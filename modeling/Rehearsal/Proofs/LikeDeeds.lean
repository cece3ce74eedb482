import Rehearsal.Proofs.Likeness

/-! # Deeds that go alike

What a step does in a world, and what it does in one that is alike, perhaps on another stage. Places,
stacks and stems of pictures may differ where the runs may. A deed that has a scenario played goes alike
if the two runners do.
-/
namespace Rehearsal

open Timed (AtOnce Both Follows Never Whatever)

variable {σ : Type} {stage stage' : Stage σ} {k : Likeness σ}

/-- Whoever plays a scenario for a step, or why it is not played. -/
def Likeness.Reports (k : Likeness σ) (x y : Timed (World σ) (Except Failure Rehearsal.Report)) :
    Prop :=
  Follows k.world (Likewise k.Report) (Answers k.BadReport k.bad) x y

section

variable (admits : stage.Admits stage' k)

include admits

namespace Locate

theorem follows_attempt (wanted : Wanted) (selector : String) :
    Follows k.world Eq Never (attempt stage.browser wanted selector)
      (attempt stage'.browser wanted selector) := by
  refine .andThen (admits.call (.probe selector)) ?_
  rintro r _ rfl
  cases r with
  | error fault => exact .pure rfl
  | ok presence =>
    cases wanted with
    | visible => cases presence <;> exact .pure rfl
    | perform operation =>
      simp only
      split
      · exact .pure rfl
      split
      · exact .pure rfl
      · refine .andThen (admits.call (.perform selector operation)) ?_
        rintro r _ rfl
        cases r with
        | ok output => exact .pure rfl
        | error fault => exact .pure rfl
    | textContains expected =>
      simp only
      split
      · exact .pure rfl
      · refine .andThen (admits.call (.perform selector .readText)) ?_
        rintro r _ rfl
        cases r with
        | error fault => exact .pure rfl
        | ok output => exact .pure rfl

theorem follows_round (wanted : Wanted) (missed : Missed) (candidates : List String) :
    Follows k.world Eq Never (round stage.browser wanted missed candidates)
      (round stage'.browser wanted missed candidates) := by
  induction candidates generalizing missed with
  | nil => exact .pure rfl
  | cons selector rest ih =>
    refine .andThen (follows_attempt admits wanted selector) ?_
    rintro r _ rfl
    cases r with
    | done output => exact .pure rfl
    | otherText text => exact ih _
    | notReady reason => exact ih _

theorem follows_rounds (wanted : Wanted) (candidates : List String) (deadline fuel : Nat)
    (other : Option (String × String)) :
    Follows k.world Eq Never (rounds stage.browser wanted candidates deadline fuel other)
      (rounds stage'.browser wanted candidates deadline fuel other) := by
  induction fuel generalizing other with
  | zero => exact .pure rfl
  | succ fuel ih =>
    refine .andThen (follows_round admits wanted _ candidates) ?_
    rintro r _ rfl
    cases r with
    | inr located => exact .pure rfl
    | inl missed =>
      refine .andThen (.read (Q := Eq) fun _ _ _ _ => rfl) ?_
      rintro now _ rfl
      split
      · exact .pure rfl
      · exact .andThen (.pause _ _) fun _ _ _ => ih missed.other

end Locate

theorem follows_locate (candidates : List String) (wanted : Wanted) (timeout : Nat) :
    Follows k.world Eq Never (locate stage.browser candidates wanted timeout)
      (locate stage'.browser candidates wanted timeout) := by
  refine .andThen (.read (Q := Eq) fun _ _ _ _ => rfl) ?_
  rintro start _ rfl
  exact Locate.follows_rounds admits wanted candidates _ _ none

theorem Perform.alike_find (candidates : List String) (wanted : Wanted) (timeout : Nat) :
    Work.Alike k Eq (find stage candidates wanted timeout) (find stage' candidates wanted timeout) :=
  .ofWorld ((follows_locate admits candidates wanted timeout).mono (fun _ _ => .of_eq) fun _ => id)

end

section

variable {place place' : Place} (admits : stage.Admits stage' k) (hplace : k.Loosely place place')

include admits hplace

namespace Login

omit admits hplace in
theorem key_eq (admits : stage.Admits stage' k) (stateName : String) :
    key stage stateName = key stage' stateName := by
  rw [key, key, admits.settings_eq.1]

theorem alike_save (stateName : String) :
    Work.Alike k Eq (save stage place stateName) (save stage' place' stateName) := by
  unfold save
  rw [← key_eq admits]
  refine .andThen (Work.alike_ask admits .snapshot) fun session => ?_
  refine .andThen (.ofWorld ?_) fun _ => ?_
  · intro w v _ c s t hst
    obtain ⟨answer, lines, world⟩ := admits.put (key stage stateName) session hst
    exact ⟨.refl w c, .inr ⟨_, _, rfl, admits.say lines world, .of_eq answer⟩⟩
  · refine .andThen (Work.alike_say admits.toTells .rfl) fun _ => ?_
    refine .andThen (Work.alike_note admits.toTells hplace (.same _)) fun _ => ?_
    exact Work.alike_setSelector _

theorem alike_load (stateName : String) :
    Work.Alike k Eq (load stage place stateName) (load stage' place' stateName) := by
  unfold load
  rw [← key_eq admits]
  refine .andThen (Work.alike_setSelector _) fun _ => ?_
  refine .andThen (.readWorld fun s t hst => admits.get (key stage stateName) hst) fun found => ?_
  cases found with
  | none => exact .andThen (Work.alike_note admits.toTells hplace (.same _)) fun _ => .pure rfl
  | some session =>
    refine .andThen (Work.alike_ask admits (.restore session)) fun _ => ?_
    refine .andThen (Work.alike_say admits.toTells .rfl) fun _ => ?_
    exact .andThen (Work.alike_note admits.toTells hplace (.same _)) fun _ => .pure rfl

omit hplace in
theorem alike_visit (url : String) (timeout : Nat) :
    Work.Alike k Eq (visit stage url timeout) (visit stage' url timeout) := by
  refine .ofWorld (.bind (.within (admits.call (B := Never) (.goto url))) ?_ ?_)
  · intro r r' hr
    cases hr with
    | none => exact .pure rfl
    | some h =>
      subst h
      rename_i answer
      cases answer with
      | ok u => exact .pure rfl
      | error fault => exact .pure rfl
  · rintro r ⟨_, _, h⟩
    exact h.elim

theorem alike_check (login : LoginTask) (timeout : Nat) :
    Work.Alike k Eq (check stage place login timeout) (check stage' place' login timeout) := by
  unfold check
  rw [← admits.settings_eq.2]
  refine .andThen (Work.alike_ask admits .currentUrl) fun current => ?_
  simp only
  split
  · exact .andThen (Work.alike_note admits.toTells hplace (.same _)) fun _ => .pure rfl
  split
  · exact .pure rfl
  · refine .andThen (.lift (follows_locate admits _ _ _)) fun r => ?_
    rcases r with e | located
    · cases e with
      | elementNotFound tried detail =>
        exact .andThen (Work.alike_note admits.toTells hplace (.same _)) fun _ => .pure rfl
      | _ => exact .throw _
    · exact .andThen (Work.alike_note admits.toTells hplace (.same _)) fun _ => .pure rfl

omit hplace in
theorem alike_perform {runner runner' : Runner σ} {stack stack' : CallStack} {id : String}
    (hrunner : k.Reports (runner id stack place.depth) (runner' id stack' place'.depth)) :
    Work.Alike k Eq (perform runner place stack id) (perform runner' place' stack' id) := by
  refine Follows.bind hrunner.onFirst ?_ ?_
  · intro r r' hr
    cases r with
    | error e =>
      cases r' with
      | ok report => exact hr.elim
      | error e' => exact Follows.pure hr
    | ok report =>
      cases r' with
      | ok report' => exact Work.alike_settle admits hr id
      | error e => exact hr.elim
  · intro r hr
    cases r with
    | error e => exact .pure hr
    | ok report =>
      obtain ⟨e, hfatal, hbad⟩ := hr
      intro c s
      refine ⟨report.settle id, _, fun _ => rfl, ?_⟩
      have hsettle : report.settle id = .error e := by simp [Report.settle, hfatal]
      rw [hsettle]
      exact hbad

theorem alike_ensure {runner runner' : Runner σ} {stack stack' : CallStack} {login : LoginTask}
    (hrunner : k.Reports (runner login.loginScenario stack place.depth)
      (runner' login.loginScenario stack' place'.depth)) (timeout : Nat) :
    Work.Alike k Eq (ensure stage runner place stack login timeout)
      (ensure stage' runner' place' stack' login timeout) := by
  refine .andThen (Work.alike_note admits.toTells hplace (.same _)) fun _ => ?_
  refine .andThen (alike_load admits hplace _) fun restored => ?_
  refine .andThen (alike_visit admits _ _) fun _ => ?_
  refine .andThen (alike_check admits hplace login timeout) fun loggedIn => ?_
  cases loggedIn with
  | true =>
    refine .andThen (Work.alike_note admits.toTells hplace (.same _)) fun _ => ?_
    exact Work.alike_setSelector _
  | false =>
    refine .andThen (Work.alike_note admits.toTells hplace (.same _)) fun _ => ?_
    refine .andThen (Work.alike_say admits.toTells .rfl) fun _ => ?_
    -- What the login came to is a value here; if it is bad it is thrown again.
    refine Follows.bind (Q := fun r r' => r = r') (B := Answers (Answers Never k.bad) Never) ?_ ?_ ?_
    · refine .bind (alike_perform admits hrunner) ?_ ?_
      · intro r r' hr
        exact .pure (congrArg Except.ok (Likewise.eq hr))
      · intro r hr
        exact .pure hr
    · rintro r _ rfl
      cases r with
      | error e => exact Follows.pure rfl
      | ok r =>
        cases r with
        | error e =>
          show Work.Alike k Eq (if e.isFatal || e = .cancelled then _ else _)
            (if e.isFatal || e = .cancelled then _ else _)
          split
          · exact .throw e
          · refine .andThen (Work.alike_note admits.toTells hplace (.same _)) fun _ => ?_
            exact .andThen (Work.alike_say admits.toTells .rfl) fun _ => .throw _
        | ok u =>
          refine Work.Alike.andThen (alike_save admits hplace _) fun _ => ?_
          refine .andThen (alike_visit admits _ _) fun _ => ?_
          refine .andThen (Work.alike_note admits.toTells hplace (.same _)) fun _ => ?_
          exact Work.alike_setSelector _
    · intro r hr
      cases r with
      | error e => exact hr.elim
      | ok r =>
        cases r with
        | ok u => exact hr.elim
        | error e =>
          show AtOnce _ (ExceptT.run (if e.isFatal || e = .cancelled then throw e else _))
          rw [admits.fatal hr]
          exact .pure hr

end Login

namespace Perform

theorem alike_found {line : String} (located : Located) :
    Work.Alike k Eq
      (do
        Work.note stage place line
        Work.setSelector located.selector)
      (do
        Work.note stage' place' line
        Work.setSelector located.selector) :=
  .andThen (Work.alike_note admits.toTells hplace (.same _)) fun _ => Work.alike_setSelector _

omit admits hplace in
theorem alike_requireFile {path : Disk.Path}
    (hfile : ∀ s t, k.world s t → s.desk.disk.has path = t.desk.disk.has path) :
    Work.Alike k Eq (requireFile path : Work σ Unit) (requireFile path) := by
  refine .readWorld (f := fun s => if s.desk.disk.has path then .ok () else _) fun s t hst => ?_
  rw [hfile s t hst]

theorem alike_paste {path : Disk.Path}
    (hfile : ∀ s t, k.world s t → s.desk.disk.readBytes path = t.desk.disk.readBytes path)
    (candidates : List String) (timeout : Nat) :
    Work.Alike k Eq (paste stage place candidates path timeout)
      (paste stage' place' candidates path timeout) := by
  refine .andThen (.ofWorld ?_) fun content => ?_
  · intro w v _ c s t hst
    rw [Timed.bind_of_done (Timed.desk_apply w c s), Timed.bind_of_done (Timed.desk_apply v c t),
      hfile s t hst]
    cases t.desk.disk.readBytes path with
    | ok content => exact ⟨.refl w c, .inr ⟨_, t, rfl, hst, rfl⟩⟩
    | error fault => exact ⟨.refl w c, .inr ⟨_, t, rfl, hst, rfl⟩⟩
  · refine .andThen (alike_find admits candidates _ timeout) fun located => ?_
    refine .andThen (Work.alike_askScript admits (.evaluate _)) fun _ => ?_
    exact alike_found admits hplace located

theorem alike_extract (candidates : List String) (saveAs : String) (timeout : Nat) :
    Work.Alike k Eq (extract stage place candidates saveAs timeout)
      (extract stage' place' candidates saveAs timeout) := by
  refine .andThen (alike_find admits candidates _ timeout) fun located => ?_
  refine .andThen (Work.alike_note admits.toTells hplace (.same _)) fun _ => ?_
  refine .andThen (.lift (.modify fun s t hst => ?_)) fun _ => Work.alike_setSelector _
  rw [admits.scope_eq hst]
  exact admits.scope _ hst

theorem alike_deed {runner runner' : Runner σ} {stack stack' : CallStack} {stem stem' : String}
    {deed : Deed}
    (hrunner : ∀ id, deed.reference? = some id →
      k.Reports (runner id stack place.depth) (runner' id stack' place'.depth))
    (hfile : ∀ path, deed.file? = some path → ∀ s t, k.world s t →
      s.desk.disk.has path = t.desk.disk.has path ∧
        s.desk.disk.readBytes path = t.desk.disk.readBytes path)
    (timeout : Nat)
    (hshot : deed = .screenshot →
      Work.Alike k Eq (Perform.deed stage runner place stack stem timeout .screenshot)
        (Perform.deed stage' runner' place' stack' stem' timeout .screenshot)) :
    Work.Alike k Eq (Perform.deed stage runner place stack stem timeout deed)
      (Perform.deed stage' runner' place' stack' stem' timeout deed) := by
  cases deed with
  | navigate url =>
    refine .andThen (Work.alike_note admits.toTells hplace (.same _)) fun _ => ?_
    exact .andThen (Work.alike_ask admits (.goto url)) fun _ => Work.alike_setSelector _
  | element candidates operation =>
    exact .andThen (alike_find admits candidates _ timeout) fun located =>
      alike_found admits hplace located
  | waitVisible candidates =>
    exact .andThen (alike_find admits candidates _ timeout) fun located =>
      alike_found admits hplace located
  | assertText candidates expected =>
    exact .andThen (alike_find admits candidates _ timeout) fun located =>
      alike_found admits hplace located
  | extract candidates saveAs => exact alike_extract admits hplace candidates saveAs timeout
  | sleep millis =>
    exact .andThen (Work.alike_note admits.toTells hplace (.same _)) fun _ => .lift (.pause millis _)
  | script text =>
    refine .andThen (Work.alike_askScript admits (.evaluate text)) fun value => ?_
    cases value with
    | null => exact .pure rfl
    | _ => exact Work.alike_note admits.toTells hplace (.same _)
  | screenshot => exact hshot rfl
  | upload candidates path =>
    refine .andThen (alike_requireFile fun s t hst => (hfile path rfl s t hst).1) fun _ => ?_
    exact .andThen (alike_find admits candidates _ timeout) fun located =>
      alike_found admits hplace located
  | pasteImage candidates path =>
    exact alike_paste admits hplace (fun s t hst => (hfile path rfl s t hst).2) candidates timeout
  | runScenario id =>
    refine .andThen (Work.alike_say admits.toTells .rfl) fun _ => ?_
    refine .andThen (Work.alike_setSelector id) fun _ => ?_
    exact Login.alike_perform admits (hrunner id rfl)
  | saveSession stateName => exact Login.alike_save admits hplace stateName
  | loadSession stateName =>
    exact .andThen (Login.alike_load admits hplace stateName) fun _ => .pure rfl
  | ensureLogin login => exact Login.alike_ensure admits hplace (hrunner _ rfl) timeout

end Perform

end

end Rehearsal
