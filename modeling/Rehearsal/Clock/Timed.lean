/-! # Work on a clock

Work changes a state while time passes, and time passes only in its pauses. Whoever has work done may
watch over it: give it up at a deadline, or as soon as the run is cancelled. Work that is given up
leaves the state as it was in its last pause. A deadline is asked after the work, a cancellation before
it: work that goes on at the very millisecond of the deadline is not given up, and work that could go
on at the millisecond of the cancellation is.
-/
namespace Rehearsal

/-- The time in milliseconds, whether the run has been cancelled, and when it is going to be. -/
structure Clock where
  now : Nat
  stopped : Bool
  cancelAt : Option Nat
deriving DecidableEq, Repr

namespace Clock

def isCancelled (c : Clock) : Bool := c.stopped || c.cancelAt.any (· ≤ c.now)

def stop (c : Clock) : Clock := { c with stopped := true }

def at_ (c : Clock) (now : Nat) : Clock := { c with now }

end Clock

structure Watch where
  cancellable : Bool
  deadline : Option Nat
deriving DecidableEq, Repr

def Watch.none : Watch := ⟨false, .none⟩

/-- The moment at which the deadline ends a pause that would last until `wake`. -/
def Watch.cutoff? (w : Watch) (now wake : Nat) : Option Nat :=
  w.deadline.bind fun d => if d < wake then some (max now d) else .none

/-- The moment at which the run is going to be cancelled, if that matters. -/
def Watch.cancelMoment? (w : Watch) (c : Clock) : Option Nat :=
  if w.cancellable then c.cancelAt else .none

inductive Exit (α : Type) where
  | done (a : α)
  | cancelled
  | expired
deriving DecidableEq, Repr

def Timed (S α : Type) : Type := Watch → Clock → S → Exit α × Clock × S

namespace Timed

variable {S T α β γ : Type}

protected def pure (a : α) : Timed S α := fun _ c s => (.done a, c, s)

protected def bind (x : Timed S α) (f : α → Timed S β) : Timed S β := fun w c s =>
  match x w c s with
  | (.done a, c, s) => f a w c s
  | (.cancelled, c, s) => (.cancelled, c, s)
  | (.expired, c, s) => (.expired, c, s)

instance : Monad (Timed S) where
  pure := Timed.pure
  bind := Timed.bind

theorem bind_apply (x : Timed S α) (f : α → Timed S β) (w : Watch) (c : Clock) (s : S) :
    (x >>= f) w c s =
      match x w c s with
      | (.done a, c, s) => f a w c s
      | (.cancelled, c, s) => (.cancelled, c, s)
      | (.expired, c, s) => (.expired, c, s) := rfl

@[simp] theorem pure_apply (a : α) (w : Watch) (c : Clock) (s : S) :
    (pure a : Timed S α) w c s = (.done a, c, s) := rfl

instance : LawfulMonad (Timed S) := by
  refine LawfulMonad.mk' _ ?_ ?_ ?_
  · intro α x
    funext w c s
    show Timed.bind x (fun a => Timed.pure a) w c s = x w c s
    unfold Timed.bind
    rcases x w c s with ⟨a | _ | _, c, s⟩ <;> rfl
  · intro α β a f
    rfl
  · intro α β γ x f g
    funext w c s
    show Timed.bind (Timed.bind x f) g w c s = Timed.bind x (fun a => Timed.bind (f a) g) w c s
    unfold Timed.bind
    rcases x w c s with ⟨a | _ | _, c, s⟩ <;> rfl

def get : Timed S S := fun _ c s => (.done s, c, s)

def modify (f : S → S) : Timed S Unit := fun _ c s => (.done (), c, f s)

def now : Timed S Nat := fun _ c s => (.done c.now, c, s)

@[simp] theorem now_apply (w : Watch) (c : Clock) (s : S) :
    (now : Timed S Nat) w c s = (.done c.now, c, s) := rfl

def isCancelled : Timed S Bool := fun _ c s => (.done c.isCancelled, c, s)

def cancel : Timed S Unit := fun _ c s => (.done (), c.stop, s)

/-- Lets time pass. No time at all is no pause, and cannot be interrupted. -/
def pause (millis : Nat) : Timed S Unit := fun w c s =>
  if millis = 0 then (.done (), c, s)
  else if w.cancellable && c.isCancelled then (.cancelled, c, s)
  else
    let wake := c.now + millis
    let cutoff := w.cutoff? c.now wake
    let stop := cutoff.getD wake
    match (w.cancelMoment? c).filter (· ≤ stop) with
    | some t => (.cancelled, c.at_ t, s)
    | none =>
      match cutoff with
      | some t => (.expired, c.at_ t, s)
      | none => (.done (), c.at_ wake, s)

def earlier (outer : Option Nat) (mine : Nat) : Nat :=
  match outer with
  | some d => min d mine
  | none => mine

/-- Gives work up when it takes longer than `millis`. A deadline further out that is earlier ends the
work around it too. -/
def within (millis : Nat) (work : Timed S α) : Timed S (Option α) := fun w c s =>
  let mine := c.now + millis
  match work { w with deadline := some (earlier w.deadline mine) } c s with
  | (.done a, c, s) => (.done (some a), c, s)
  | (.cancelled, c, s) => (.cancelled, c, s)
  | (.expired, c, s) =>
    if w.deadline.all (mine ≤ ·) then (.done none, c, s) else (.expired, c, s)

/-- Gives work up when the run is cancelled, and does not begin it when that has happened already. Of
several such watches around each other it is the outermost that ends. -/
def untilCancelled (work : Timed S α) : Timed S (Option α) := fun w c s =>
  if c.isCancelled then (.done none, c, s)
  else
    match work { w with cancellable := true } c s with
    | (.done a, c, s) => (.done (some a), c, s)
    | (.cancelled, c, s) => if w.cancellable then (.cancelled, c, s) else (.done none, c, s)
    | (.expired, c, s) => (.expired, c, s)

/-- Work with a state of its own besides. The state comes out with the result, and is lost when the
work is given up. -/
def withOwn (t : T) (work : Timed (S × T) α) : Timed S (α × T) := fun w c s =>
  match work w c (s, t) with
  | (.done a, c, (s, t)) => (.done (a, t), c, s)
  | (.cancelled, c, (s, _)) => (.cancelled, c, s)
  | (.expired, c, (s, _)) => (.expired, c, s)

/-- Work that leaves a second state alone. -/
def onFirst (work : Timed S α) : Timed (S × T) α := fun w c st =>
  match work w c st.1 with
  | (.done a, c, s) => (.done a, c, (s, st.2))
  | (.cancelled, c, s) => (.cancelled, c, (s, st.2))
  | (.expired, c, s) => (.expired, c, (s, st.2))

def modifySecond (f : T → T) : Timed (S × T) Unit := modify fun (s, t) => (s, f t)

/-- Work with nobody watching, from a first state on. -/
def run (work : Timed S α) (c : Clock) (s : S) : Option α × Clock × S :=
  match work Watch.none c s with
  | (.done a, c, s) => (some a, c, s)
  | (.cancelled, c, s) => (none, c, s)
  | (.expired, c, s) => (none, c, s)

end Timed

end Rehearsal
