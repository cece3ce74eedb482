import Rehearsal.Browser.Basic
import Rehearsal.Run.World

/-! # What a browser is asked for

Some browsers keep a record of what they are asked for and when. That requests are taken is not part of
it. Every browser can be made to keep such a record beside its page, which changes nothing else.
-/
namespace Rehearsal

variable {σ α : Type}

inductive Asking where
  | goto (url : String)
  | currentUrl
  | probe (selector : String)
  | perform (selector : String) (operation : Operation)
  | evaluate (script : String)
  | screenshot (full : Bool)
  | snapshot
  | restore (session : SavedSession)
  | finishRecording
deriving Repr

def Asking.isPicture : Asking → Bool
  | screenshot true => true
  | _ => false

/-- This is the call for what the browser is asked for. -/
inductive Browser.Serves (b : Browser σ) : {α : Type} → Asking → Call σ α → Prop
  | goto (url : String) : b.Serves (.goto url) (b.goto url)
  | currentUrl : b.Serves .currentUrl b.currentUrl
  | probe (selector : String) : b.Serves (.probe selector) (b.probe selector)
  | perform (selector : String) (operation : Operation) :
    b.Serves (.perform selector operation) (b.perform selector operation)
  | evaluate (script : String) : b.Serves (.evaluate script) (b.evaluate script)
  | screenshot (full : Bool) : b.Serves (.screenshot full) (b.screenshot full)
  | snapshot : b.Serves .snapshot b.snapshot
  | restore (session : SavedSession) : b.Serves (.restore session) (b.restore session)
  | finishRecording : b.Serves .finishRecording b.finishRecording

/-- What the browser was asked for, each time with the moment, can be read off its page. -/
structure Browser.Records (b : Browser σ) (asked : σ → List (Nat × Asking)) : Prop where
  served : ∀ {α : Type} {asking : Asking} {call : Call σ α}, b.Serves asking call →
    ∀ w c s, asked (call.run w c s).2.2.page = asked s.page ++ [(c.now, asking)]
  taken : ∀ w c s, asked (b.takeRequests.run w c s).2.2.page = asked s.page

/-- Leaves alone what is kept beside the page. -/
def Call.beside (κ : Type) (call : Call σ α) : Call (σ × κ) α :=
  call.onPart Prod.fst fun page whole => (page, whole.2)

/-- Puts down what was asked for, and when, before anything is done about it. -/
def Call.recording (asking : Asking) (call : Call σ α) : Call (σ × List (Nat × Asking)) α :=
  .look fun now whole => .save (whole.1, whole.2 ++ [(now, asking)]) (call.beside _)

/-- A pause depends on the clock and on who watches, and leaves alone whatever there is. -/
theorem Timed.pause_leaves (millis : Nat) (w : Watch) (c : Clock) :
    ∃ e c', ∀ {S : Type} (s : S), Timed.pause millis w c s = (e, c', s) := by
  unfold Timed.pause
  simp only
  split
  · exact ⟨_, _, fun _ => rfl⟩
  split
  · exact ⟨_, _, fun _ => rfl⟩
  split
  · exact ⟨_, _, fun _ => rfl⟩
  split
  · exact ⟨_, _, fun _ => rfl⟩
  · exact ⟨_, _, fun _ => rfl⟩

/-- A call does what it does, and what is kept beside the page stays. -/
theorem Call.run_beside {κ : Type} (call : Call σ α) (w : Watch) (c : Clock) (s : World (σ × κ)) :
    (call.beside κ).run w c s =
      ((call.run w c { s with page := s.page.1 }).1, (call.run w c { s with page := s.page.1 }).2.1,
        { (call.run w c { s with page := s.page.1 }).2.2 with
          page := ((call.run w c { s with page := s.page.1 }).2.2.page, s.page.2) }) := by
  induction call generalizing c s with
  | done a => rfl
  | look next ih => exact ih c.now s.page.1 c s
  | save page next ih => exact ih c { s with page := (page, s.page.2) }
  | pause millis next ih =>
    obtain ⟨e, c', hpause⟩ := Timed.pause_leaves millis w c
    show (Timed.pause millis >>= fun _ => (next.beside κ).run) w c s = _
    simp only [Call.run, Timed.bind_apply, hpause]
    cases e with
    | done u => exact ih c' s
    | cancelled => rfl
    | expired => rfl
  | cancel next ih => exact ih c.stop s
  | note line next ih => exact ih c (s.say [line])

def Browser.recorded (b : Browser σ) : Browser (σ × List (Nat × Asking)) where
  goto url := (b.goto url).recording (.goto url)
  currentUrl := b.currentUrl.recording .currentUrl
  probe selector := (b.probe selector).recording (.probe selector)
  perform selector operation := (b.perform selector operation).recording (.perform selector operation)
  evaluate script := (b.evaluate script).recording (.evaluate script)
  screenshot full := (b.screenshot full).recording (.screenshot full)
  snapshot := b.snapshot.recording .snapshot
  restore session := (b.restore session).recording (.restore session)
  takeRequests := b.takeRequests.beside _
  finishRecording := b.finishRecording.recording .finishRecording
  close := b.close.beside _

theorem Browser.records_recorded (b : Browser σ) : b.recorded.Records Prod.snd where
  served := by
    intro α asking call serves w c s
    have hrecording : ∀ {β : Type} (a : Asking) (own : Call σ β),
        ((own.recording a).run w c s).2.2.page.2 = s.page.2 ++ [(c.now, a)] := by
      intro β a own
      show ((own.beside _).run w c { s with page := (s.page.1, s.page.2 ++ [(c.now, a)]) }).2.2.page.2 = _
      rw [Call.run_beside]
    cases serves with
    | goto url => exact hrecording _ (b.goto url)
    | currentUrl => exact hrecording _ b.currentUrl
    | probe selector => exact hrecording _ (b.probe selector)
    | perform selector operation => exact hrecording _ (b.perform selector operation)
    | evaluate script => exact hrecording _ (b.evaluate script)
    | screenshot full => exact hrecording _ (b.screenshot full)
    | snapshot => exact hrecording _ b.snapshot
    | restore session => exact hrecording _ (b.restore session)
    | finishRecording => exact hrecording _ b.finishRecording
  taken := by
    intro w c s
    show ((b.takeRequests.beside _).run w c s).2.2.page.2 = _
    rw [Call.run_beside]

end Rehearsal
