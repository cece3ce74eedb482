import Rehearsal.Text.Search
import Rehearsal.Text.Template

/-! # Variables of a run

The texts that a run has set under names. A run has one such scope, shared by all the scenarios it
plays. Filling in a template replaces every slot whose name is set; the texts put in are not looked at
again.
-/
namespace Rehearsal

/-- Names with their texts, each name once. -/
structure Scope where
  entries : List (String × String)
deriving DecidableEq, Repr

namespace Scope

def empty : Scope := ⟨[]⟩

/-- Replaces the text of a name among entries, or adds the name at their end. -/
def setIn (name value : String) : List (String × String) → List (String × String)
  | [] => [(name, value)]
  | (n, v) :: rest => if n = name then (name, value) :: rest else (n, v) :: setIn name value rest

def set (s : Scope) (name value : String) : Scope := ⟨setIn name value s.entries⟩

def get? (s : Scope) (name : String) : Option String := s.entries.lookup name

def contains (s : Scope) (name : String) : Bool := (s.get? name).isSome

def size (s : Scope) : Nat := s.entries.length

/-- A piece of a template with its text put in. -/
def fillPiece (s : Scope) (p : Text.Piece) : List Char :=
  match p.slotName? with
  | some name => ((s.get? (String.ofList name)).map String.toList).getD p.written
  | none => p.written

def fillSlots (s : Scope) (template : String) : String :=
  String.ofList ((Text.pieces template.toList).flatMap s.fillPiece)

/-- The template with its slots filled in. Without two opening braces it has none, and is not read. -/
def fill (s : Scope) (template : String) : String :=
  if Text.contains template "\x7b\x7b" then s.fillSlots template else template

/-- The names of the slots that are not set, in their order and with repetitions. -/
def unset (s : Scope) (template : String) : List String :=
  (Text.pieces template.toList).filterMap fun p =>
    (p.slotName?.map String.ofList).filter fun name => !s.contains name

theorem get?_setIn (name value other : String) (entries : List (String × String)) :
    (setIn name value entries).lookup other =
      if other = name then some value else entries.lookup other := by
  induction entries with
  | nil =>
    by_cases h : other = name
    · simp [setIn, h]
    · simp [setIn, List.lookup_cons, h, beq_false_of_ne h]
  | cons e rest ih =>
    obtain ⟨n, v⟩ := e
    by_cases hn : n = name
    · subst hn
      by_cases ho : other = n
      · simp [setIn, ho]
      · simp [setIn, List.lookup_cons, ho, beq_false_of_ne ho]
    · by_cases hon : other = n
      · subst hon
        simp [setIn, hn]
      · simp [setIn, List.lookup_cons, hn, beq_false_of_ne hon, ih]

@[simp] theorem get?_set (s : Scope) (name value other : String) :
    (s.set name value).get? other = if other = name then some value else s.get? other :=
  get?_setIn name value other s.entries

@[simp] theorem get?_empty (name : String) : empty.get? name = none := rfl

end Scope

end Rehearsal
