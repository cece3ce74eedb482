import Rehearsal.Text.Digits

/-! # Places in a run

Which step of which scenario is being played, how deep, and through which scenarios one got there.
-/
namespace Rehearsal

/-- A step by its scenario and its index there; the scenario played first has depth zero. -/
structure Place where
  scenario : String
  index : Nat
  depth : Nat
deriving DecidableEq, Repr

/-- As shown to people, who count steps from one. -/
def Place.text (p : Place) : String :=
  "[场景 " ++ p.scenario ++ " 步骤#" ++ Text.decimal (p.index + 1) ++
    (if p.depth = 0 then "]" else " 层级#" ++ Text.decimal p.depth ++ "]")

/-- The scenarios that are being played, outermost first. -/
structure CallStack where
  ids : List String
deriving DecidableEq, Repr

namespace CallStack

def root (id : String) : CallStack := ⟨[id]⟩

def contains (s : CallStack) (id : String) : Bool := s.ids.contains id

def push (s : CallStack) (id : String) : CallStack := ⟨s.ids ++ [id]⟩

/-- The way that leads back to `id`. -/
def chainTo (s : CallStack) (id : String) : List String := s.ids ++ [id]

end CallStack

end Rehearsal
