import Rehearsal.Proofs.Asking
import Rehearsal.Proofs.Likeness

/-! # Pages that look the same

What calls can see of a page may be less than all of it. Calls that do the same on pages that look the
same leave such pages, and go alike in worlds that differ no further. With a log of all calls beside the
page, in which pictures are not looked at, it is the same.
-/
namespace Rehearsal

open Timed (Follows)

variable {σ ν α : Type} {view : σ → ν}

namespace Call

/-- The calls do the same on pages that look the same, and leave such pages. -/
inductive Alike (view : σ → ν) : Call σ α → Call σ α → Prop
  | done (a : α) : Alike view (.done a) (.done a)
  | look {next next' : Nat → σ → Call σ α}
    (h : ∀ now page page', view page = view page' → Alike view (next now page) (next' now page')) :
    Alike view (.look next) (.look next')
  | save {page page' : σ} {next next' : Call σ α} (same : view page = view page')
    (h : Alike view next next') : Alike view (.save page next) (.save page' next')
  | pause (millis : Nat) {next next' : Call σ α} (h : Alike view next next') :
    Alike view (.pause millis next) (.pause millis next')
  | cancel {next next' : Call σ α} (h : Alike view next next') :
    Alike view (.cancel next) (.cancel next')
  | note (line : LogLine) {next next' : Call σ α} (h : Alike view next next') :
    Alike view (.note line next) (.note line next')

/-- The call is answered at once, and leaves a page that looks the same. -/
def Still (view : σ → ν) (call : Call σ α) : Prop :=
  ∀ w c s, ∃ a page log,
    call.run w c s = (.done a, c, { s with page, log }) ∧ view page = view s.page

/-- Where all of the page can be seen, every call does the same as itself. -/
theorem alike_self (call : Call σ α) : Alike id call call := by
  induction call with
  | done a => exact .done a
  | look next ih =>
    refine .look fun now page page' same => ?_
    obtain rfl : page = page' := same
    exact ih now page
  | save page next ih => exact .save rfl ih
  | pause millis next ih => exact .pause millis ih
  | cancel next ih => exact .cancel ih
  | note line next ih => exact .note line ih

namespace Alike

variable {call call' : Call σ α}

/-- Calls that are alike go alike in worlds whose pages look the same. -/
theorem follows {R : World σ → World σ → Prop} {B : α → Prop}
    (page : ∀ {s t}, R s t → view s.page = view t.page)
    (save : ∀ {s t} (page page' : σ), view page = view page' → R s t →
      R { s with page } { t with page := page' })
    (say : ∀ {s t} (lines : List LogLine), R s t → R (s.say lines) (t.say lines))
    (h : Alike view call call') : Follows R Eq B call.run call'.run := by
  induction h with
  | done a => exact .pure rfl
  | look _ ih =>
    intro w v hw c s t hst
    exact ih c.now s.page t.page (page hst) w v hw c s t hst
  | save same _ ih =>
    intro w v hw c s t hst
    exact ih w v hw c _ _ (save _ _ same hst)
  | pause millis _ ih => exact .andThen (.pause millis _) fun _ _ _ => ih
  | cancel _ ih =>
    intro w v hw c s t hst
    exact .since (fun d _ => Nat.le_max_left ..) (ih w v hw c.stop s t hst)
  | note line _ ih =>
    intro w v hw c s t hst
    exact ih w v hw c _ _ (say [line] hst)

end Alike

end Call

/-- All that the browser does, pictures apart, depends on what can be seen of its page. -/
def Browser.SeenBy (b : Browser σ) (view : σ → ν) : Prop :=
  ∀ {α : Type} {call call' : Call σ α}, b.Pairs b call call' → Call.Alike view call call'

/-- All of a page is enough for any browser. -/
theorem Browser.seenBy_id (b : Browser σ) : b.SeenBy id := by
  intro α call call' h
  cases h <;> exact Call.alike_self _

/-! ## A log of all calls -/

/-- Logs what it is called for, and when, before anything is done about it. -/
def Call.logging {κ : Type} (entry : κ) (call : Call σ α) : Call (σ × List (Nat × κ)) α :=
  .look fun now whole => .save (whole.1, whole.2 ++ [(now, entry)]) (call.beside _)

/-- The browser with a log of its calls beside its page. Where nothing is asked for, requests are
taken. -/
def Browser.logged (b : Browser σ) : Browser (σ × List (Nat × Option Asking)) where
  goto url := (b.goto url).logging (some (.goto url))
  currentUrl := b.currentUrl.logging (some .currentUrl)
  probe selector := (b.probe selector).logging (some (.probe selector))
  perform selector operation :=
    (b.perform selector operation).logging (some (.perform selector operation))
  evaluate script := (b.evaluate script).logging (some (.evaluate script))
  screenshot full := (b.screenshot full).logging (some (.screenshot full))
  snapshot := b.snapshot.logging (some .snapshot)
  restore session := (b.restore session).logging (some (.restore session))
  takeRequests := b.takeRequests.logging none
  finishRecording := b.finishRecording.logging (some .finishRecording)
  close := b.close.beside _

/-- The calls of a log besides those for pictures of whole pages. -/
def callsBeside (log : List (Nat × Option Asking)) : List (Nat × Option Asking) :=
  log.filter fun called => !called.2.any Asking.isPicture

/-- What can be seen of a page, and of its log besides pictures of whole pages. -/
def viewBeside (view : σ → ν) (page : σ × List (Nat × Option Asking)) :
    ν × List (Nat × Option Asking) :=
  (view page.1, callsBeside page.2)

namespace Call

variable {call call' : Call σ α}

theorem Alike.beside (h : Alike view call call') :
    Alike (viewBeside view) (call.beside _) (call'.beside _) := by
  induction h with
  | done a => exact .done a
  | look _ ih =>
    exact .look fun now page page' same => ih now page.1 page'.1 (congrArg Prod.fst same)
  | save same _ ih =>
    refine .look fun now whole whole' wholes => .save ?_ ih
    obtain ⟨-, calls⟩ := Prod.mk.inj wholes
    exact Prod.ext same calls
  | pause millis _ ih => exact .pause millis ih
  | cancel _ ih => exact .cancel ih
  | note line _ ih => exact .note line ih

theorem Alike.logging (entry : Option Asking) (h : Alike view call call') :
    Alike (viewBeside view) (call.logging entry) (call'.logging entry) := by
  refine .look fun now page page' same => .save ?_ h.beside
  obtain ⟨seen, calls⟩ := Prod.mk.inj same
  refine Prod.ext seen ?_
  simp only [callsBeside] at calls
  simp only [viewBeside, callsBeside, List.filter_append, calls]

/-- A call for a picture that is still remains so when it is logged. -/
theorem Still.logging {asking : Asking} (picture : asking.isPicture = true)
    (still : Still view call) : Still (viewBeside view) (call.logging (some asking)) := by
  intro w c s
  obtain ⟨a, page, log, hrun, same⟩ := still w c { s with page := s.page.1 }
  refine ⟨a, (page, s.page.2 ++ [(c.now, some asking)]), log, ?_, ?_⟩
  · show (call.beside _).run w c { s with page := (s.page.1, s.page.2 ++ [(c.now, some asking)]) } = _
    rw [run_beside, hrun]
  · simp only [viewBeside, callsBeside, same, List.filter_append]
    simp [picture]

end Call

theorem Browser.SeenBy.logged {b : Browser σ} (seen : b.SeenBy view) :
    b.logged.SeenBy (viewBeside view) := by
  intro α call call' h
  cases h with
  | goto url => exact .logging _ (seen (.goto url))
  | currentUrl => exact .logging _ (seen .currentUrl)
  | probe selector => exact .logging _ (seen (.probe selector))
  | perform selector operation => exact .logging _ (seen (.perform selector operation))
  | evaluate script => exact .logging _ (seen (.evaluate script))
  | snapshot => exact .logging _ (seen .snapshot)
  | restore session => exact .logging _ (seen (.restore session))
  | takeRequests => exact .logging _ (seen .takeRequests)
  | finishRecording => exact .logging _ (seen .finishRecording)

end Rehearsal
