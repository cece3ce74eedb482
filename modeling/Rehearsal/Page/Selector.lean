import Rehearsal.Page.UiMap

/-! # Targets

From the target of a step to the selectors to try. A target `map.element` that names an element of a
map stands for the element's selectors; next a default map is asked for the whole target; any other
target is a selector itself.
-/
namespace Rehearsal

structure Selectors where
  maps : UiMapSet
  defaultMap : Option String
deriving DecidableEq, Repr

namespace Selectors

/-- Both sides of the first dot, neither of them empty. -/
def splitReference? (target : String) : Option (String × String) :=
  match Text.cutAt? ['.'] target.toList with
  | some (map, element) =>
    if map.isEmpty || element.isEmpty then none
    else some (String.ofList map, String.ofList element)
  | none => none

def referenced? (s : Selectors) (target : String) : Option Locator :=
  (splitReference? target).bind fun (map, element) =>
    (s.maps.get? map).bind fun m => m.element? element

/-- The element that a target names in the default map. -/
def inDefault? (s : Selectors) (target : String) : Option Locator :=
  (s.defaultMap.bind s.maps.get?).bind fun m => m.element? target

def resolve (s : Selectors) (target : String) : List String :=
  match s.referenced? target with
  | some l => l.candidates
  | none =>
    match s.inDefault? target with
    | some l => l.candidates
    | none => [target]

theorem resolve_ne_nil (s : Selectors) (target : String) : s.resolve target ≠ [] := by
  unfold resolve
  split
  · simp [Locator.candidates]
  · split <;> simp [Locator.candidates]

end Selectors

end Rehearsal
