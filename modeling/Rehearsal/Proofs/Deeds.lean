import Rehearsal.Proofs.OnStage
import Rehearsal.Proofs.Readiness

/-! # What deeds maintain

Looking for elements, logging in and everything else that a task may ask for. Only a deed that has a
scenario played can fail with something fatal, and only with what was fatal there.
-/
namespace Rehearsal

open Timed (Maintains Whatever)

variable {σ : Type} {stage : Stage σ} {P : Failure → Prop}

section

variable {I : World σ → Prop} {b : Browser σ} (keeps : b.Keeps I)

namespace Locate

theorem failure_mild (wanted : Wanted) (candidates : List String) (missed : Missed) :
    (failure wanted candidates missed).isFatal = false := by
  unfold failure
  split <;> rfl

include keeps

theorem maintains_attempt (wanted : Wanted) (selector : String) :
    Maintains I Whatever (attempt b wanted selector) := by
  refine .bind (keeps (.probe selector)) fun r _ => ?_
  cases r with
  | error fault => exact .pure trivial
  | ok presence =>
    cases wanted with
    | visible => cases presence <;> exact .pure trivial
    | perform operation =>
      simp only
      split
      · exact .pure trivial
      split
      · exact .pure trivial
      · refine .bind (keeps (.perform selector _)) fun r _ => ?_
        cases r with
        | ok output => exact .pure trivial
        | error fault => exact .pure trivial
    | textContains expected =>
      simp only
      split
      · exact .pure trivial
      · refine .bind (keeps (.perform selector _)) fun r _ => ?_
        cases r with
        | error fault => exact .pure trivial
        | ok output => exact .pure trivial

theorem maintains_round (wanted : Wanted) (missed : Missed) (candidates : List String) :
    Maintains I Whatever (round b wanted missed candidates) := by
  induction candidates generalizing missed with
  | nil => exact .pure trivial
  | cons selector rest ih =>
    refine .bind (maintains_attempt keeps wanted selector) fun r _ => ?_
    cases r with
    | done output => exact .pure trivial
    | otherText text => exact ih _
    | notReady reason => exact ih _

theorem maintains_rounds (hP : ∀ e : Failure, e.isFatal = false → P e) (wanted : Wanted)
    (candidates : List String) (deadline fuel : Nat) (other : Option (String × String)) :
    Maintains I (Answers Whatever P) (rounds b wanted candidates deadline fuel other) := by
  induction fuel generalizing other with
  | zero => exact .pure (hP _ (failure_mild ..))
  | succ fuel ih =>
    refine .bind (maintains_round keeps wanted _ candidates) fun r _ => ?_
    cases r with
    | inr located => exact .pure trivial
    | inl missed =>
      refine .bind .now fun now _ => ?_
      split
      · exact .pure (hP _ (failure_mild ..))
      · exact .bind (.pause _) fun _ _ => ih missed.other

end Locate

include keeps in
theorem maintains_locate (hP : ∀ e : Failure, e.isFatal = false → P e) (candidates : List String)
    (wanted : Wanted) (timeout : Nat) :
    Maintains I (Answers Whatever P) (locate b candidates wanted timeout) :=
  .bind .now fun _ _ => Locate.maintains_rounds keeps hP wanted candidates _ _ none

end

section

variable {place : Place} {J : World σ × Trace → Prop} (endures : stage.Endures place J)
  (tolerates : stage.Tolerates P)

include endures tolerates

namespace Login

theorem maintains_save (stateName : String) :
    Work.Maintains J Whatever P (save stage place stateName) := by
  refine .bind (Work.maintains_ask endures tolerates .snapshot) fun session _ => ?_
  refine .bind (R := Whatever) (.ofWorld fun t => ?_) fun _ _ => ?_
  · intro w c s hs
    have hput := endures (.session (key stage stateName) session) hs
    refine ⟨.refl c, endures (.say _) hput, ?_⟩
    cases h : (stage.sessions.put s.desk (key stage stateName) session).1 with
    | ok u => exact trivial
    | error e => exact tolerates.put h
  · refine .bind (Work.maintains_say endures _) fun _ _ => ?_
    exact .bind (Work.maintains_note endures _) fun _ _ => Work.maintains_setSelector endures _

theorem maintains_load (stateName : String) :
    Work.Maintains J Whatever P (load stage place stateName) := by
  refine .bind (Work.maintains_setSelector endures _) fun _ _ => ?_
  refine .bind (R := Whatever) (.ofWorld fun t => .read fun c s _ => ?_) fun found _ => ?_
  · cases h : stage.sessions.get s.desk (key stage stateName) with
    | ok session => exact trivial
    | error e => exact tolerates.get h
  · cases found with
    | none => exact .bind (Work.maintains_note endures _) fun _ _ => .pure trivial
    | some session =>
      refine .bind (Work.maintains_ask endures tolerates (.restore session)) fun _ _ => ?_
      refine .bind (Work.maintains_say endures _) fun _ _ => ?_
      exact .bind (Work.maintains_note endures _) fun _ _ => .pure trivial

theorem maintains_visit (url : String) (timeout : Nat) :
    Work.Maintains J Whatever P (visit stage url timeout) := by
  refine .ofWorld fun t => .bind (.within (endures.keeps t (.goto url))) fun r _ => ?_
  rcases r with _ | fault | _
  · exact .pure (tolerates.mild rfl)
  · exact .pure (tolerates.mild rfl)
  · exact .pure trivial

theorem maintains_check (login : LoginTask) (timeout : Nat) :
    Work.Maintains J Whatever P (check stage place login timeout) := by
  refine .bind (Work.maintains_ask endures tolerates .currentUrl) fun current _ => ?_
  simp only
  split
  · exact .bind (Work.maintains_note endures _) fun _ _ => .pure trivial
  split
  · exact .pure trivial
  · refine .bind (.lift fun t => maintains_locate (endures.keeps t) (fun _ => tolerates.mild) _ _ _)
      fun r hr => ?_
    rcases r with e | located
    · cases e with
      | elementNotFound tried detail =>
        exact .bind (Work.maintains_note endures _) fun _ _ => .pure trivial
      | _ => exact .throw hr
    · exact .bind (Work.maintains_note endures _) fun _ _ => .pure trivial

end Login

namespace Perform

theorem maintains_find (candidates : List String) (wanted : Wanted) (timeout : Nat) :
    Work.Maintains J Whatever P (find stage candidates wanted timeout) :=
  .ofWorld fun t =>
    maintains_locate (endures.keeps t) (fun _ => tolerates.mild) candidates wanted timeout

omit tolerates in
theorem maintains_found (line : String) (located : Located) :
    Work.Maintains J Whatever P (do
      Work.note stage place line
      Work.setSelector located.selector) :=
  .bind (Work.maintains_note endures line) fun _ _ => Work.maintains_setSelector endures _

omit endures in
theorem maintains_requireFile (path : Disk.Path) :
    Work.Maintains J Whatever P (requireFile path : Work σ Unit) := by
  refine .ofWorld fun t => .read fun c s _ => ?_
  split
  · exact trivial
  · exact tolerates.mild rfl

theorem maintains_paste (candidates : List String) (path : Disk.Path) (timeout : Nat) :
    Work.Maintains J Whatever P (paste stage place candidates path timeout) := by
  refine .bind (R := Whatever) (.ofWorld fun t => ?_) fun content _ => ?_
  · refine .bind (R := Whatever) (.read fun _ _ _ => trivial) fun desk _ => ?_
    split
    · exact .pure trivial
    · exact .pure (tolerates.mild rfl)
  · refine .bind (maintains_find endures tolerates candidates _ timeout) fun located _ => ?_
    refine .bind (Work.maintains_askScript endures tolerates (.evaluate _)) fun _ _ => ?_
    exact maintains_found endures _ located

/-- Reading into a variable maintains what survives that a variable is set. -/
theorem maintains_extract (set : ∀ ⦃s t⦄ scope, J (s, t) → J ({ s with scope }, t))
    (candidates : List String) (saveAs : String) (timeout : Nat) :
    Work.Maintains J Whatever P (extract stage place candidates saveAs timeout) := by
  refine .bind (maintains_find endures tolerates candidates _ timeout) fun located _ => ?_
  refine .bind (Work.maintains_note endures _) fun _ _ => ?_
  refine .bind (.lift fun _ => .modify fun s hs => set _ hs) fun _ _ => ?_
  exact Work.maintains_setSelector endures _

/-- A deed that sets no variable and has no scenario played is a matter of the step's own moves. -/
theorem maintains_own {deed : Deed} (shown : deed = .screenshot → Shown J)
    (hplays : deed.reference? = none)
    (hreads : ∀ candidates saveAs, deed ≠ .extract candidates saveAs) (runner : Runner σ)
    (stack : CallStack) (stem : String) (timeout : Nat) :
    Work.Maintains J Whatever P (Perform.deed stage runner place stack stem timeout deed) := by
  cases deed with
  | navigate url =>
    refine .bind (Work.maintains_note endures _) fun _ _ => ?_
    refine .bind (Work.maintains_ask endures tolerates (.goto url)) fun _ _ => ?_
    exact Work.maintains_setSelector endures url
  | element candidates operation =>
    refine .bind (maintains_find endures tolerates candidates _ timeout) fun located _ => ?_
    exact maintains_found endures _ located
  | waitVisible candidates =>
    refine .bind (maintains_find endures tolerates candidates _ timeout) fun located _ => ?_
    exact maintains_found endures _ located
  | assertText candidates expected =>
    refine .bind (maintains_find endures tolerates candidates _ timeout) fun located _ => ?_
    exact maintains_found endures _ located
  | extract candidates saveAs => exact absurd rfl (hreads candidates saveAs)
  | sleep millis => exact .bind (Work.maintains_note endures _) fun _ _ => .lift fun _ => .pause millis
  | script text =>
    refine .bind (Work.maintains_askScript endures tolerates (.evaluate text)) fun value _ => ?_
    cases value with
    | null => exact .pure trivial
    | _ => exact Work.maintains_note endures _
  | screenshot =>
    refine .bind (Work.maintains_ask endures tolerates (.screenshot false)) fun png _ => ?_
    refine .bind (Work.maintains_storeScreenshot endures tolerates _ png) fun stored _ => ?_
    refine .bind (Work.maintains_note endures _) fun _ _ => ?_
    exact Work.maintains_setScreenshot (shown rfl) stored
  | upload candidates path =>
    refine .bind (maintains_requireFile tolerates path) fun _ _ => ?_
    refine .bind (maintains_find endures tolerates candidates _ timeout) fun located _ => ?_
    exact maintains_found endures _ located
  | pasteImage candidates path => exact maintains_paste endures tolerates candidates path timeout
  | runScenario id => cases hplays
  | saveSession stateName => exact Login.maintains_save endures tolerates stateName
  | loadSession stateName =>
    exact .bind (Login.maintains_load endures tolerates stateName) fun _ _ => .pure trivial
  | ensureLogin login => cases hplays

end Perform

end

section

variable {I : World σ → Prop} (stable : stage.Stable I) (tolerates : stage.Tolerates P)

include tolerates

theorem Login.maintains_perform {runner : Runner σ} {place : Place} {stack : CallStack} {id : String}
    (hrunner : Maintains I (Blames P) (runner id stack place.depth)) :
    Work.Maintains (fun st => I st.1) Whatever P (perform runner place stack id) :=
  .bind (.ofWorld fun _ => hrunner) fun _ hr =>
    Work.maintains_settle tolerates (fun _ _ h => h) hr id

include stable

theorem Login.maintains_ensure {runner : Runner σ} {place : Place} {stack : CallStack}
    {login : LoginTask}
    (hrunner : Maintains I (Blames P) (runner login.loginScenario stack place.depth))
    (timeout : Nat) :
    Work.Maintains (fun st => I st.1) Whatever P
      (ensure stage runner place stack login timeout) := by
  have endures := (stable.firm place).endures
  refine .bind (Work.maintains_note endures _) fun _ _ => ?_
  refine .bind (maintains_load endures tolerates _) fun restored _ => ?_
  refine .bind (maintains_visit endures tolerates _ _) fun _ _ => ?_
  refine .bind (maintains_check endures tolerates login timeout) fun loggedIn _ => ?_
  cases loggedIn with
  | true =>
    exact .bind (Work.maintains_note endures _) fun _ _ => Work.maintains_setSelector endures _
  | false =>
    refine .bind (Work.maintains_note endures _) fun _ _ => ?_
    refine .bind (Work.maintains_say endures _) fun _ _ => ?_
    refine .bind (.try_ (maintains_perform tolerates hrunner)) fun r hr => ?_
    rcases r with e | _
    · simp only
      split
      · exact .throw hr
      · refine .bind (Work.maintains_note endures _) fun _ _ => ?_
        exact .bind (Work.maintains_say endures _) fun _ _ => .throw (tolerates.mild rfl)
    · refine .bind (maintains_save endures tolerates _) fun _ _ => ?_
      refine .bind (maintains_visit endures tolerates _ _) fun _ _ => ?_
      exact .bind (Work.maintains_note endures _) fun _ _ => Work.maintains_setSelector endures _

namespace Perform

theorem maintains_deed {runner : Runner σ} {place : Place} {stack : CallStack} {deed : Deed}
    (hrunner : ∀ id, deed.reference? = some id →
      Maintains I (Blames P) (runner id stack place.depth)) (stem : String) (timeout : Nat) :
    Work.Maintains (fun st => I st.1) Whatever P
      (Perform.deed stage runner place stack stem timeout deed) := by
  have endures := (stable.firm place).endures
  cases deed with
  | extract candidates saveAs =>
    exact maintains_extract endures tolerates (fun _ _ _ h => stable.scope _ h) candidates saveAs timeout
  | runScenario id =>
    refine .bind (Work.maintains_say endures _) fun _ _ => ?_
    refine .bind (Work.maintains_setSelector endures id) fun _ _ => ?_
    exact Login.maintains_perform tolerates (hrunner id rfl)
  | ensureLogin login => exact Login.maintains_ensure stable tolerates (hrunner _ rfl) timeout
  | _ =>
    exact maintains_own endures tolerates (fun _ _ _ _ h => h) rfl (fun _ _ h => by cases h) runner stack
      stem timeout

end Perform

end

end Rehearsal
