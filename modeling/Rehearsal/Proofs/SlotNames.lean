import Mathlib.Data.List.Basic
import Rehearsal.Proofs.Course
import Rehearsal.Proofs.Slots

/-! # The names in a template

Of the variables only those matter that the slots of a template are named by. A name of word characters
can be read back from the slot that is written with it. Under any other name a text is set in vain: a
step may set it, but no template has a slot for it.
-/
namespace Rehearsal

namespace Text

instance : DecidablePred IsName := fun name =>
  decidable_of_iff (name ≠ [] ∧ name.all isWord = true) (by rw [IsName, List.all_eq_true])

/-- The names of the slots of a template, in their order and with repetitions. -/
def slotNames (template : String) : List String := (layout template.toList).names.map String.ofList

/-- The template that is one slot, if this can be the name of one. -/
def slotOf (name : String) : String := String.ofList (Piece.slot name.toList).written

theorem mem_slotNames_iff {template name : String} :
    name ∈ slotNames template ↔ ∃ i, SlotAt template.toList i name.toList := by
  have hdivides := layout_divides template.toList
  simp only [hdivides.slotAt_iff, slotNames, List.mem_map, Layout.names]
  constructor
  · rintro ⟨_, ⟨⟨word, stretch⟩, hslot, rfl⟩, rfl⟩
    obtain ⟨before, after, hsplit⟩ := List.append_of_mem hslot
    exact ⟨_, before, stretch, after, by simpa using hsplit, rfl⟩
  · rintro ⟨_, before, stretch, after, hsplit, -⟩
    refine ⟨name.toList, ⟨(name.toList, stretch), ?_, rfl⟩, String.ofList_toList⟩
    rw [hsplit]
    exact List.mem_append_right before List.mem_cons_self

theorem isName_of_mem_slotNames {template name : String} (h : name ∈ slotNames template) :
    IsName name.toList := by
  obtain ⟨i, hslot⟩ := mem_slotNames_iff.1 h
  exact hslot.1

theorem slotNames_eq_nil_iff {template : String} :
    slotNames template = [] ↔ SlotFree template.toList := by
  constructor
  · intro h i name hslot
    have hmem : String.ofList name ∈ slotNames template := mem_slotNames_iff.2 ⟨i, by simpa using hslot⟩
    rw [h] at hmem
    exact List.not_mem_nil hmem
  · intro h
    rw [List.eq_nil_iff_forall_not_mem]
    intro name hmem
    obtain ⟨i, hslot⟩ := mem_slotNames_iff.1 hmem
    exact h i _ hslot

namespace Layout

theorem filled_congr {l : Layout} {value value' : List Char → List Char}
    (h : ∀ name ∈ l.names, value name = value' name) : l.filled value = l.filled value' := by
  obtain ⟨first, slots⟩ := l
  have hslots : ∀ slot ∈ slots, value slot.1 ++ slot.2 = value' slot.1 ++ slot.2 := by
    intro slot hslot
    rw [h slot.1 (List.mem_map_of_mem hslot)]
  rw [filled, filled, List.flatMap_congr hslots]

/-- A slot by itself. -/
def ofName (name : List Char) : Layout := ⟨[], [(name, [])]⟩

theorem divides_ofName {name : List Char} (h : IsName name) :
    (ofName name).Divides (Piece.slot name).written := by
  constructor
  · simp [ofName, Layout.written, filled]
  · simpa [ofName, names] using h
  · simpa [ofName, stretches] using slotFree_nil

end Layout

theorem slotNames_slotOf {name : String} (h : IsName name.toList) : slotNames (slotOf name) = [name] := by
  have hdivides := Layout.divides_ofName h
  rw [slotNames, slotOf, String.toList_ofList, ← hdivides.eq_layout]
  simp [Layout.ofName, Layout.names]

end Text

namespace Scope

open Text

variable {s s' : Scope} {template : String}

theorem unset_eq_filter (s : Scope) (template : String) :
    s.unset template = (slotNames template).filter fun name => !s.contains name :=
  s.unset_eq (layout_divides template.toList)

theorem toList_fill (s : Scope) (template : String) :
    (s.fill template).toList = (layout template.toList).filled s.textFor := by
  rw [fill_eq_fillSlots, s.toList_fillSlots (layout_divides template.toList)]

/-- Filling in looks at the variables that the slots are named by and at no others. -/
theorem fill_congr (h : ∀ name ∈ slotNames template, s.get? name = s'.get? name) :
    s.fill template = s'.fill template := by
  rw [← String.toList_inj, toList_fill, toList_fill]
  apply Layout.filled_congr
  intro name hname
  rw [textFor, textFor, h _ (List.mem_map_of_mem hname)]

theorem unset_congr (h : ∀ name ∈ slotNames template, s.get? name = s'.get? name) :
    s.unset template = s'.unset template := by
  rw [unset_eq_filter, unset_eq_filter]
  apply List.filter_congr
  intro name hname
  rw [contains, contains, h name hname]

/-- Without variables every slot stays as it is written. -/
theorem fill_empty (template : String) : empty.fill template = template := by
  have hwritten : empty.textFor = fun name => (Piece.slot name).written := rfl
  rw [← String.toList_inj, toList_fill, hwritten]
  exact (layout_divides template.toList).written

/-- A text without slots stays as it is. -/
theorem fill_of_slotFree (s : Scope) (h : SlotFree template.toList) : s.fill template = template := by
  have hnames : slotNames template = [] := slotNames_eq_nil_iff.2 h
  have hfill : s.fill template = empty.fill template := fill_congr (by simp [hnames])
  rw [hfill, fill_empty]

/-! ### Texts read back -/

/-- Once the text is set under the name, the slot of this name is filled in with it and lacks nothing. -/
def ReadsBack (s : Scope) (name value : String) : Prop :=
  (s.set name value).fill (slotOf name) = value ∧ (s.set name value).unset (slotOf name) = []

theorem readsBack_of_isName (s : Scope) {name : String} (h : IsName name.toList) (value : String) :
    s.ReadsBack name value := by
  constructor
  · have hdivides := Layout.divides_ofName h
    rw [← String.toList_inj, toList_fill, slotOf, String.toList_ofList, ← hdivides.eq_layout]
    simp [Layout.ofName, Layout.filled, textFor]
  · rw [unset_eq_filter, slotNames_slotOf h]
    simp [contains]

/-- No slot is named so, and no template looks at the text. -/
theorem get?_set_of_not_isName (s : Scope) {name : String} (h : ¬ IsName name.toList) (value : String) :
    ∀ other ∈ slotNames template, (s.set name value).get? other = s.get? other := by
  intro other hother
  have hne : other ≠ name := by
    rintro rfl
    exact h (isName_of_mem_slotNames hother)
  rw [get?_set, if_neg hne]

/-- Exactly the names of word characters can be read back. -/
theorem readsBack_iff {name : String} :
    (∀ (s : Scope) (value : String), s.ReadsBack name value) ↔ IsName name.toList := by
  constructor
  · intro hall
    by_contra hname
    have hfill := (hall empty "").1
    rw [fill_congr (empty.get?_set_of_not_isName hname ""), fill_empty] at hfill
    have hempty := congrArg String.toList hfill
    simp [slotOf, Piece.written] at hempty
  · exact fun h s value => s.readsBack_of_isName h value

end Scope

/-- A step that has extracted a text has set it under its name, and done nothing else to the
variables. -/
theorem Play.scope_of_extract {σ : Type} {stage : Stage σ} {runner : Runner σ} {place : Place}
    {stack : CallStack} {stem : String} {step : Step} {target saveAs : String} {w : Watch}
    {c c' : Clock} {x y : World σ × Trace} (extract : step.instruction = .extract target saveAs)
    (h : Play.attempt stage runner place stack stem step w c x = (.done (.ok ()), c', y)) :
    ∃ text, y.1.scope = x.1.scope.set saveAs text := by
  have tried : Tried stage runner place stack step x w (.ok ()) y := (brings_attempt stem).left rfl h
  obtain course | ⟨failed, -⟩ := tried
  · obtain ⟨a, b, _, _, first, happens, last⟩ := course.moved
    cases happens with
    | nothing unread => exact absurd extract (unread rfl target saveAs)
    | reads instruction =>
      obtain ⟨-, rfl⟩ := Instruction.extract.inj (extract.symm.trans instruction)
      exact ⟨_, last.scope.trans (congrArg (Scope.set · saveAs _) first.scope)⟩
    | plays reference =>
      rw [extract] at reference
      cases reference
  · cases failed

namespace StepDocument

/-- A document of an extraction is accepted with any name that is not blank. What the step sets under
the name can be read back in every run exactly when it is made of word characters; otherwise no template
ever looks at it. -/
theorem extract_readable_iff {d : StepDocument} {step : Step} {target saveAs : String}
    (accepted : d.toStep = .ok step) (extract : step.instruction = .extract target saveAs) :
    Picked d.saveAs d.value saveAs ∧
      (∀ {σ : Type} (stage : Stage σ) runner place stack stem w c x c' y,
        Play.attempt stage runner place stack stem step w c x = (.done (.ok ()), c', y) →
          ∃ text, y.1.scope = x.1.scope.set saveAs text) ∧
      ((∀ (s : Scope) (v : String), s.ReadsBack saveAs v) ↔ Text.IsName saveAs.toList) ∧
      (¬ Text.IsName saveAs.toList → ∀ (s : Scope) (v template : String),
        (s.set saveAs v).fill template = s.fill template ∧
          (s.set saveAs v).unset template = s.unset template) := by
  obtain ⟨⟨-, describes⟩, -⟩ := toStep_eq_ok_iff.1 accepted
  rw [extract] at describes
  refine ⟨describes.2, ?_, Scope.readsBack_iff, ?_⟩
  · intro σ stage runner place stack stem w c x c' y h
    exact Play.scope_of_extract extract h
  · intro hname s v template
    have hsame : ∀ other ∈ Text.slotNames template, (s.set saveAs v).get? other = s.get? other :=
      s.get?_set_of_not_isName hname v
    exact ⟨Scope.fill_congr hsame, Scope.unset_congr hsame⟩

/-- An extraction under a name with a hyphen. -/
def hyphened : StepDocument :=
  { ofAction .extract with target := some "#order", saveAs := some "order-id" }

theorem toStep_hyphened :
    hyphened.toStep = .ok (.ofInstruction (.extract "#order" "order-id")) := by decide

theorem extract_readable_iff_hyphened :
    hyphened.toStep = .ok (.ofInstruction (.extract "#order" "order-id")) ∧
      Picked hyphened.saveAs hyphened.value "order-id" ∧
      ∀ (s : Scope) (v template : String), (s.set "order-id" v).fill template = s.fill template := by
  obtain ⟨picked, -, -, unread⟩ := extract_readable_iff toStep_hyphened rfl
  exact ⟨toStep_hyphened, picked, fun s v template => (unread (by decide) s v template).1⟩

/-- Not every accepted name can be read back. -/
theorem not_always_readable :
    ¬ ∀ (d : StepDocument) (step : Step) (target saveAs : String), d.toStep = .ok step →
      step.instruction = .extract target saveAs →
      ∀ (s : Scope) (v : String), s.ReadsBack saveAs v := by
  intro hall
  have hname := Scope.readsBack_iff.1 (hall _ _ _ _ toStep_hyphened rfl)
  revert hname
  decide

end StepDocument

end Rehearsal
