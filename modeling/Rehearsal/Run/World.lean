import Rehearsal.Browser.Basic
import Rehearsal.Run.Place
import Rehearsal.Scope

/-! # The world of a run

All that a run changes: the browser, the desk, its variables, the count of steps begun, the steps
played, the events told so far and the log.
-/
namespace Rehearsal

/-- A step that was played, where and inside which scenarios, with its outcome and the failure behind
it. -/
structure Turn where
  place : Place
  stack : CallStack
  step : Step
  outcome : Outcome
  failure : Option Failure
deriving DecidableEq, Repr

structure World (σ : Type) where
  page : σ
  desk : Desk
  scope : Scope
  begun : Nat
  /-- The steps played to their end, in the order of their ends. Nothing that is played looks at them. -/
  turns : List Turn
  events : List Event
  log : List LogLine

namespace World

variable {σ : Type}

def ofPage (page : σ) (desk : Desk) : World σ := ⟨page, desk, .empty, 0, [], [], []⟩

def say (w : World σ) (lines : List LogLine) : World σ := { w with log := w.log ++ lines }

theorem say_say (w : World σ) (lines lines' : List LogLine) :
    (w.say lines).say lines' = w.say (lines ++ lines') := by
  simp only [say, List.append_assoc]

def tell (w : World σ) (e : Event) : World σ := { w with events := w.events ++ [e] }

def close (w : World σ) (t : Turn) : World σ := { w with turns := w.turns ++ [t] }

end World

def Call.run {σ α : Type} : Call σ α → Timed (World σ) α
  | .done a => pure a
  | .look next => fun w c s => (next c.now s.page).run w c s
  | .save page next => fun w c s => next.run w c { s with page }
  | .pause millis next => Timed.pause millis >>= fun _ => next.run
  | .cancel next => fun w c s => next.run w c.stop s
  | .note line next => fun w c s => next.run w c (s.say [line])

namespace Timed

variable {σ : Type}

def say (lines : List LogLine) : Timed (World σ) Unit := modify (·.say lines)

def desk : Timed (World σ) Desk := fun _ c s => (.done s.desk, c, s)

def scope : Timed (World σ) Scope := fun _ c s => (.done s.scope, c, s)

def setDesk (desk : Desk) : Timed (World σ) Unit := modify fun s => { s with desk }

@[simp] theorem say_apply (lines : List LogLine) (w : Watch) (c : Clock) (s : World σ) :
    say lines w c s = (.done (), c, s.say lines) := rfl

@[simp] theorem desk_apply (w : Watch) (c : Clock) (s : World σ) :
    desk w c s = (.done s.desk, c, s) := rfl

@[simp] theorem scope_apply (w : Watch) (c : Clock) (s : World σ) :
    scope w c s = (.done s.scope, c, s) := rfl

def begin_ : Timed (World σ) Nat := fun _ c s =>
  (.done (s.begun + 1), c, { s with begun := s.begun + 1 })

@[simp] theorem begin_apply (w : Watch) (c : Clock) (s : World σ) :
    begin_ w c s = (.done (s.begun + 1), c, { s with begun := s.begun + 1 }) := rfl

end Timed

end Rehearsal
