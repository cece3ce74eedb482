import Rehearsal.Proofs.SlotNames

/-! # Waits whose value is no number

The value of a wait is looked at when the step is accepted, unless a slot is opened in it. It is read
again when the step is made ready, with its slots filled in; so a wait fails only if a slot is opened,
and it fails with any variables if none stands in its value.
-/
namespace Rehearsal

open Text (HasSlot IsWordText SlotFree)

namespace Text

theorem mem_dropWhile_of_neg {p : Char → Bool} {cs : List Char} {c : Char} (h : c ∈ cs)
    (hc : p c = false) : c ∈ cs.dropWhile p := by
  rw [← List.takeWhile_append_dropWhile (p := p) (l := cs), List.mem_append] at h
  obtain htake | hdrop := h
  · have hp : p c = true := List.all_eq_true.1 List.all_takeWhile c htake
    rw [hc] at hp
    cases hp
  · exact hdrop

/-- Only blanks are trimmed off. -/
theorem mem_trim {v : String} {c : Char} (h : c ∈ v.toList) (hc : isBlank c = false) :
    c ∈ (trim v).toList := by
  rw [trim, String.toList_ofList, trimChars, List.mem_reverse]
  apply mem_dropWhile_of_neg _ hc
  rw [List.mem_reverse]
  exact mem_dropWhile_of_neg h hc

/-- A number has no braces. -/
theorem not_isWordText_of_hasSlot {v : String} (h : HasSlot v) : ¬ IsWordText (trim v) := by
  obtain ⟨before, after, hv⟩ := h
  have hbrace : '\x7b' ∈ (trim v).toList := mem_trim (by simp [hv]) (by decide)
  rintro ⟨digits, hdigits, -, hall, -⟩
  have hin : '\x7b' ∈ digits := by
    obtain heq | heq := hdigits <;> rw [heq] at hbrace <;> simpa using hbrace
  have hdigit := hall _ hin
  revert hdigit
  decide

end Text

namespace StepDocument

variable {d : StepDocument} {step : Step} {value : String} {s : Scope}

theorem waitMillis_of_isWordText (h : IsWordText (Text.trim value)) :
    ∃ millis, waitMillis value = .ok millis := by
  obtain ⟨millis, hmillis⟩ := Option.isSome_iff_exists.1 ((Text.isSome_natural?_iff _).2 h)
  exact ⟨millis, by simp only [waitMillis, hmillis]⟩

theorem waitMillis_of_hasSlot (h : HasSlot value) : waitMillis value = .error (.waitValue value) := by
  have hnone : Text.natural? Text.wordMax (Text.trim value) = none := by
    rw [← Option.not_isSome_iff_eq_none, Text.isSome_natural?_iff]
    exact Text.not_isWordText_of_hasSlot h
  simp only [waitMillis, hnone]

theorem eq_waitValue_of_waitMillis {fault : DocumentFault} (h : waitMillis value = .error fault) :
    fault = .waitValue value := by
  unfold waitMillis at h
  split at h
  · cases h
  · exact (Except.error.inj h).symm

theorem task_of_wait (b : Bench) (desk : Desk) {millis : Nat} (wait : step.instruction = .wait value)
    (h : waitMillis (s.fill value) = .ok millis) :
    ∃ task, b.task desk s step = .ok task ∧ task.deed = .sleep millis := by
  have hdeed : b.deed desk s step.instruction = .ok (.sleep millis) := by
    rw [wait]
    unfold Bench.deed
    simp only [h]
  exact ⟨_, by rw [Bench.task, hdeed]; rfl, rfl⟩

theorem task_error_of_wait (b : Bench) (desk : Desk) {fault : DocumentFault}
    (wait : step.instruction = .wait value) (h : waitMillis (s.fill value) = .error fault) :
    b.task desk s step = .error (.document fault) := by
  have hdeed : b.deed desk s step.instruction = .error (.document fault) := by
    rw [wait]
    unfold Bench.deed
    simp only [h]
  rw [Bench.task, hdeed]
  rfl

/-- An accepted `wait` is made ready with any variables when no slot is opened in its value. -/
theorem ready_of_not_hasSlot (accepted : d.toStep = .ok step) (wait : step.instruction = .wait value)
    (h : ¬ HasSlot value) :
    ∃ millis, waitMillis value = .ok millis ∧
      ∀ b desk s, ∃ task, Bench.task b desk s step = .ok task ∧ task.deed = .sleep millis := by
  obtain ⟨⟨-, describes⟩, -⟩ := toStep_eq_ok_iff.1 accepted
  rw [wait] at describes
  obtain ⟨millis, hmillis⟩ := waitMillis_of_isWordText (describes.2.resolve_left h)
  refine ⟨millis, hmillis, fun b desk s => task_of_wait b desk wait ?_⟩
  rwa [Scope.fill, if_neg (mt (Text.contains_braces_iff value).1 h)]

/-- The value of an accepted `wait` is a number, or a slot is opened in it. One in which a slot is opened
and none stands is accepted too, but it is no number, and no variables make it one. -/
theorem wait_ready (accepted : d.toStep = .ok step) (wait : step.instruction = .wait value) :
    (¬ HasSlot value → ∃ millis, waitMillis value = .ok millis ∧
      ∀ b desk s, ∃ task, Bench.task b desk s step = .ok task ∧ task.deed = .sleep millis) ∧
    (HasSlot value → SlotFree value.toList → waitMillis value = .error (.waitValue value) ∧
      ∀ b desk s, Bench.task b desk s step = .error (.document (.waitValue value))) ∧
    (∀ b desk s e, Bench.task b desk s step = .error e →
      HasSlot value ∧ e = .document (.waitValue (s.fill value))) := by
  refine ⟨ready_of_not_hasSlot accepted wait, ?_, ?_⟩
  · intro hopen hfree
    have hnone := waitMillis_of_hasSlot hopen
    refine ⟨hnone, fun b desk s => task_error_of_wait b desk wait ?_⟩
    rwa [s.fill_of_slotFree hfree]
  · intro b desk s e he
    constructor
    · by_contra hopen
      obtain ⟨millis, -, hready⟩ := ready_of_not_hasSlot accepted wait hopen
      obtain ⟨task, htask, -⟩ := hready b desk s
      rw [he] at htask
      cases htask
    · cases hnumber : waitMillis (s.fill value) with
      | ok millis =>
        obtain ⟨task, htask, -⟩ := task_of_wait b desk wait hnumber
        rw [he] at htask
        cases htask
      | error fault =>
        have hfault := task_error_of_wait b desk wait hnumber
        rw [he, eq_waitValue_of_waitMillis hnumber] at hfault
        exact Except.error.inj hfault

/-- A `wait` with blanks inside the braces, which make no slot. -/
def spaced : StepDocument := { ofAction .wait with value := some "\x7b\x7b delay \x7d\x7d" }

theorem toStep_spaced : spaced.toStep = .ok (.ofInstruction (.wait "\x7b\x7b delay \x7d\x7d")) := by decide

theorem hasSlot_spaced : HasSlot "\x7b\x7b delay \x7d\x7d" := ⟨[], " delay \x7d\x7d".toList, by decide⟩

theorem slotFree_spaced : SlotFree "\x7b\x7b delay \x7d\x7d".toList :=
  Text.slotNames_eq_nil_iff.1 (by decide +kernel)

theorem wait_ready_spaced :
    spaced.toStep = .ok (.ofInstruction (.wait "\x7b\x7b delay \x7d\x7d")) ∧
      HasSlot "\x7b\x7b delay \x7d\x7d" ∧ SlotFree "\x7b\x7b delay \x7d\x7d".toList ∧
      ∀ b desk s, Bench.task b desk s (.ofInstruction (.wait "\x7b\x7b delay \x7d\x7d")) =
        .error (.document (.waitValue "\x7b\x7b delay \x7d\x7d")) := by
  obtain ⟨-, stray, -⟩ := wait_ready toStep_spaced rfl
  exact ⟨toStep_spaced, hasSlot_spaced, slotFree_spaced, (stray hasSlot_spaced slotFree_spaced).2⟩

/-- Not every accepted value without slots is a number. -/
theorem not_always_number :
    ¬ ∀ (d : StepDocument) (step : Step) (value : String), d.toStep = .ok step →
      step.instruction = .wait value → SlotFree value.toList → ∃ millis, waitMillis value = .ok millis := by
  intro hall
  obtain ⟨millis, hmillis⟩ := hall _ _ _ toStep_spaced rfl slotFree_spaced
  rw [waitMillis_of_hasSlot hasSlot_spaced] at hmillis
  cases hmillis

end StepDocument

end Rehearsal
