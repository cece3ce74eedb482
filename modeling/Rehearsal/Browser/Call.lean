import Rehearsal.Clock.Timed
import Rehearsal.Log

/-! # Calls to a browser

What a call may do, as a tree: look at the clock and at the browser's state, change that state, pause,
cancel the run, write a line to the log. A call always comes to its end, after whatever time it takes.
-/
namespace Rehearsal

inductive Call (σ : Type) (α : Type) where
  | done (a : α)
  | look (next : Nat → σ → Call σ α)
  | save (page : σ) (next : Call σ α)
  | pause (millis : Nat) (next : Call σ α)
  | cancel (next : Call σ α)
  | note (line : LogLine) (next : Call σ α)

namespace Call

variable {σ α β : Type}

protected def bind : Call σ α → (α → Call σ β) → Call σ β
  | done a, f => f a
  | look next, f => look fun now page => (next now page).bind f
  | save page next, f => save page (next.bind f)
  | pause millis next, f => pause millis (next.bind f)
  | cancel next, f => cancel (next.bind f)
  | note line next, f => note line (next.bind f)

instance : Monad (Call σ) where
  pure := done
  bind := Call.bind

theorem bind_done (x : Call σ α) : x.bind done = x := by
  induction x with
  | done a => rfl
  | look next ih => simp only [Call.bind, ih]
  | save page next ih => simp only [Call.bind, ih]
  | pause millis next ih => simp only [Call.bind, ih]
  | cancel next ih => simp only [Call.bind, ih]
  | note line next ih => simp only [Call.bind, ih]

theorem bind_assoc {γ : Type} (x : Call σ α) (f : α → Call σ β) (g : β → Call σ γ) :
    (x.bind f).bind g = x.bind fun a => (f a).bind g := by
  induction x with
  | done a => rfl
  | look next ih => simp only [Call.bind, ih]
  | save page next ih => simp only [Call.bind, ih]
  | pause millis next ih => simp only [Call.bind, ih]
  | cancel next ih => simp only [Call.bind, ih]
  | note line next ih => simp only [Call.bind, ih]

instance : LawfulMonad (Call σ) :=
  LawfulMonad.mk' _ bind_done (fun _ _ => rfl) bind_assoc

def now : Call σ Nat := look fun now _ => done now

def page : Call σ σ := look fun _ page => done page

def setPage (page : σ) : Call σ Unit := save page (done ())

def modifyPage (f : σ → σ) : Call σ Unit := look fun _ page => save (f page) (done ())

def wait (millis : Nat) : Call σ Unit := pause millis (done ())

def say (line : LogLine) : Call σ Unit := note line (done ())

/-- A call to a part of a larger state. -/
def onPart {τ : Type} (part : τ → σ) (put : σ → τ → τ) : Call σ α → Call τ α
  | done a => done a
  | look next => look fun now whole => (next now (part whole)).onPart part put
  | save page next => look fun _ whole => save (put page whole) (next.onPart part put)
  | pause millis next => pause millis (next.onPart part put)
  | cancel next => cancel (next.onPart part put)
  | note line next => note line (next.onPart part put)

end Call

end Rehearsal
