import Rehearsal.Proofs.WrittenValues
import Rehearsal.Run.Play

/-! # The names of pictures

A step has two names for its pictures, both of which begin with its number in the run. However many digits
it has, the number is read back from the name. So two steps never share a name, and none of the names is
that of the record.
-/
namespace Rehearsal

open Json.Tree (digitsOf ofDigits)

theorem Text.ofDigits_zeros (count : Nat) (ds : List Nat) :
    ofDigits (List.replicate count 0 ++ ds) = ofDigits ds := by
  induction count with
  | zero => rfl
  | succ count ih =>
    rw [← ih]
    rfl

/-- The zeros in front do not count. -/
theorem Text.ofDigits_padded (width n : Nat) :
    ofDigits ((Text.padded width n).toList.filterMap Text.digit?) = n := by
  have zeros : ∀ count, (List.replicate count '0').filterMap Text.digit? = List.replicate count 0 := by
    intro count
    rw [List.filterMap_replicate_of_some (show Text.digit? '0' = some 0 by decide)]
  have spelled : (Text.padded width n).toList =
      List.replicate (width - (Text.digits n).length) '0' ++ Text.digits n := String.toList_ofList
  rw [spelled, List.filterMap_append, zeros, Text.ofDigits_zeros, Text.ofDigits_digits]

namespace Play

/-- The names of the pictures of a step: of one that was asked for or of a success, and of a failure. -/
inductive Named (number : Nat) (action : Action) : String → Prop
  | shot : Named number action (stem number action ++ ".png")
  | error : Named number action (stem number action ++ "_error.png")

theorem number_stem (number : Nat) (action : Action) (rest : String) :
    ofDigits (digitsOf (stem number action ++ rest).toList).1 = number := by
  have spelled : (stem number action ++ rest).toList =
      (Text.padded 3 number).toList ++ '_' :: (action.word ++ rest).toList := by
    simp [stem]
  rw [spelled, Json.Tree.digitsOf_append ?_ (Decimal.Shortest.isDigits_padded 3 number), Text.ofDigits_padded]
  intro c hc
  cases hc
  decide

variable {number number' : Nat} {action action' : Action} {name : String}

/-- A name tells the number of its step. -/
theorem Named.number_eq (h : Named number action name) (h' : Named number' action' name) :
    number = number' := by
  have read : ∀ {number action}, Named number action name →
      ofDigits (digitsOf name.toList).1 = number := by
    intro number action h
    cases h with
    | shot => exact number_stem ..
    | error => exact number_stem ..
  exact (read h).symm.trans (read h')

theorem Named.ne_resultName (h : Named number action name) : name ≠ ArtifactSink.resultName := by
  -- The names end differently.
  have last : ∀ {stem rest : String}, rest.toList.getLast? = some 'g' →
      (stem ++ rest).toList.getLast? = some 'g' := by
    intro stem rest hrest
    rw [String.toList_append, List.getLast?_append, hrest]
    rfl
  have named : name.toList.getLast? = some 'g' := by
    cases h with
    | shot => exact last (by decide)
    | error => exact last (by decide)
  rintro rfl
  revert named
  decide

theorem shot_ne_error (stem : String) : stem ++ ".png" ≠ stem ++ "_error.png" := by
  intro h
  have hlength := congrArg String.length h
  have hshot : ".png".length = 4 := by decide
  have herror : "_error.png".length = 10 := by decide
  rw [String.length_append, String.length_append] at hlength
  omega

end Play

end Rehearsal
