import Rehearsal.Run.World

/-! # Locating elements

The candidates for an element are tried in their order, and the first that does what is wanted is
taken. A round in which none does is repeated after a while, until the time is up; the last round is
made at the very end of the time.
-/
namespace Rehearsal

/-- What is wanted of an element. -/
inductive Wanted where
  | visible
  | perform (operation : Operation)
  | textContains (expected : String)
deriving DecidableEq, Repr

/-- The candidate that was taken, and what its operation gave. -/
structure Located where
  selector : String
  output : Option String
deriving DecidableEq, Repr

namespace Locate

variable {σ : Type}

def interval : Nat := 100

inductive Attempt where
  | done (output : Option String)
  | otherText (text : String)
  | notReady (reason : String)
deriving DecidableEq, Repr

def absent : Attempt := .notReady "未附加"

def unseen : Attempt := .notReady "不可见"

def attempt (b : Browser σ) (wanted : Wanted) (selector : String) : Timed (World σ) Attempt := do
  match ← (b.probe selector).run with
  | .error fault => return .notReady fault.message
  | .ok presence =>
    match wanted with
    | .visible =>
      match presence with
      | .missing => return absent
      | .hidden => return unseen
      | .visible => return .done none
    | .perform operation =>
      if presence = .missing then return absent
      else if presence = .hidden ∧ operation.needsVisible = true then return unseen
      else
        match ← (b.perform selector operation).run with
        | .ok output => return .done output
        | .error fault => return .notReady (operation.word ++ " 失败: " ++ fault.message)
    | .textContains expected =>
      if presence = .missing then return absent
      else
        match ← (b.perform selector .readText).run with
        | .error fault => return .notReady fault.message
        | .ok output =>
          let text := output.getD ""
          return if Text.contains text expected then .done (some text) else .otherText text

/-- What a round without success found: why each candidate was not taken, and of all rounds the last
candidate with another text. -/
structure Missed where
  reasons : List String
  other : Option (String × String)
deriving DecidableEq, Repr

def round (b : Browser σ) (wanted : Wanted) :
    Missed → List String → Timed (World σ) (Missed ⊕ Located)
  | missed, [] => return .inl missed
  | missed, selector :: rest => do
    match ← attempt b wanted selector with
    | .done output => return .inr ⟨selector, output⟩
    | .otherText text =>
      round b wanted
        ⟨missed.reasons ++ [selector ++ ": 文本不匹配"], some (selector, text)⟩ rest
    | .notReady reason =>
      round b wanted { missed with reasons := missed.reasons ++ [selector ++ ": " ++ reason] } rest

/-- Why the time ran out without success. -/
def failure (wanted : Wanted) (candidates : List String) (missed : Missed) : Failure :=
  match wanted, missed.other with
  | .textContains expected, some (selector, text) => .assertion selector expected text
  | _, _ => .elementNotFound candidates (Text.joinWith "; " missed.reasons)

/-- Rounds until the deadline; `fuel` bounds their number. -/
def rounds (b : Browser σ) (wanted : Wanted) (candidates : List String) (deadline : Nat) :
    Nat → Option (String × String) → Timed (World σ) (Except Failure Located)
  | 0, other => return .error (failure wanted candidates ⟨[], other⟩)
  | fuel + 1, other => do
    match ← round b wanted ⟨[], other⟩ candidates with
    | .inr located => return .ok located
    | .inl missed =>
      let now ← Timed.now
      if deadline ≤ now then return .error (failure wanted candidates missed)
      else do
        Timed.pause (min interval (deadline - now))
        rounds b wanted candidates deadline fuel missed.other

end Locate

/-- Finds the first candidate that does what is wanted, within `timeout` milliseconds. -/
def locate {σ : Type} (b : Browser σ) (candidates : List String) (wanted : Wanted) (timeout : Nat) :
    Timed (World σ) (Except Failure Located) := do
  let start ← Timed.now
  Locate.rounds b wanted candidates (start + timeout) (timeout / Locate.interval + 2) none

end Rehearsal
