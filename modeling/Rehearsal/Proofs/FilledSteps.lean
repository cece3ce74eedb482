import Mathlib.Data.List.Induction
import Mathlib.Data.List.Nodup
import Rehearsal.Proofs.SlotNames

/-! # Steps with their templates filled in

To make a step ready comes to two things, one after the other: the templates in it are filled in, and
what results is resolved as if there were no variables. So the step depends on the variables that its
templates name, and on no others.
-/
namespace Rehearsal

open Text (slotNames)

namespace Instruction

/-- The file that the instruction works with, as it is written. -/
def file? : Instruction → Option String
  | uploadFile _ path | pasteImage _ path => some path
  | _ => none

/-- The path of a file with `f` applied to it. A reference to a resource is no template. -/
def mapPath (f : String → String) (path : String) : String :=
  if (ResourceResolver.reference? path).isSome then path else f path

/-- The instruction with `f` applied to every template in it. -/
def mapTemplates (f : String → String) : Instruction → Instruction
  | goto url => goto (f url)
  | interact gesture target => interact gesture (f target)
  | fill target value => fill (f target) (f value)
  | type target value => type (f target) (f value)
  | select target value => select (f target) (f value)
  | press target key => press (f target) (f key)
  | waitFor target => waitFor (f target)
  | assertText target value => assertText (f target) (f value)
  | wait value => wait (f value)
  | runScript script => runScript script
  | screenshot => screenshot
  | extract target saveAs => extract (f target) saveAs
  | uploadFile target path => uploadFile (f target) (mapPath f path)
  | pasteImage target path => pasteImage (f target) (mapPath f path)
  | runScenario id => runScenario id
  | saveSession stateName => saveSession stateName
  | loadSession stateName => loadSession stateName
  | ensureLogin rule =>
    ensureLogin { rule with
      checkUrl := f rule.checkUrl
      loggedInSelector := rule.loggedInSelector.map f }

theorem mapPath_of_none {f : String → String} {path : String}
    (h : ResourceResolver.reference? path = none) : mapPath f path = f path := by
  simp [mapPath, h]

theorem mapPath_of_some {f : String → String} {path id : String}
    (h : ResourceResolver.reference? path = some id) : mapPath f path = path := by
  simp [mapPath, h]

theorem action_mapTemplates (f : String → String) (i : Instruction) :
    (i.mapTemplates f).action = i.action := by
  cases i <;> rfl

end Instruction

namespace Step

/-- The step with its templates filled in. -/
def filled (step : Step) (scope : Scope) : Step :=
  { step with instruction := step.instruction.mapTemplates scope.fill }

/-- The names of the slots in all templates of the step, in the order in which these are filled in. -/
def slotNames (step : Step) : List String :=
  (Bench.templates step.instruction).flatMap Text.slotNames

/-- A path that is no reference to a resource becomes one when it is filled in. -/
def ComesToReference (step : Step) (scope : Scope) : Prop :=
  ∃ path, step.instruction.file? = some path ∧ ResourceResolver.reference? path = none ∧
    ResourceResolver.reference? (scope.fill path) ≠ none

theorem reference?_fill_of_not_comesToReference {step : Step} {scope : Scope}
    (h : ¬ step.ComesToReference scope) :
    ∀ path, step.instruction.file? = some path → ResourceResolver.reference? path = none →
      ResourceResolver.reference? (scope.fill path) = none := by
  intro path hpath href
  by_contra hbecomes
  exact h ⟨path, hpath, href, hbecomes⟩

end Step

namespace Bench

variable {b : Bench} {d : Desk} {s s' : Scope} {step : Step}

/-! ### Deeds -/

theorem filePath_of_none {path : String} (h : ResourceResolver.reference? path = none) :
    b.filePath d s path = .ok (Disk.Path.join b.settings.workingDir (s.fill path)) := by
  simp only [filePath, h]

theorem filePath_of_some {path id : String} (h : ResourceResolver.reference? path = some id) :
    b.filePath d s path = b.resources.resolve d b.settings.projectId id := by
  simp only [filePath, h]

/-- The path of a file comes from what is written when this is filled in. -/
theorem filePath_mapPath {path : String}
    (h : ResourceResolver.reference? path = none → ResourceResolver.reference? (s.fill path) = none) :
    b.filePath d .empty (Instruction.mapPath s.fill path) = b.filePath d s path := by
  cases href : ResourceResolver.reference? path with
  | none =>
    rw [Instruction.mapPath_of_none href, filePath_of_none (h href), filePath_of_none href,
      Scope.fill_empty]
  | some id => rw [Instruction.mapPath_of_some href, filePath_of_some href, filePath_of_some href]

theorem deed_uploadFile (target path : String) :
    b.deed d s (.uploadFile target path) =
      (b.filePath d s path).map (.upload (b.selectors.resolve (s.fill target))) := rfl

theorem deed_pasteImage (target path : String) :
    b.deed d s (.pasteImage target path) =
      (b.filePath d s path).map (.pasteImage (b.selectors.resolve (s.fill target))) := rfl

theorem deed_ensureLogin (rule : LoginRule) :
    b.deed d s (.ensureLogin rule) = .ok (.ensureLogin {
      checkUrl := b.address d (s.fill rule.checkUrl)
      loginScenario := rule.loginScenario
      stateName := rule.stateName
      loggedIn := rule.loggedInSelector.map fun target => b.selectors.resolve (s.fill target)
      loginUrlPattern := rule.loginUrlPattern }) := rfl

/-- The deed is what the filled in instruction is resolved to without variables. -/
theorem deed_mapTemplates (h : ¬ step.ComesToReference s) :
    b.deed d .empty (step.instruction.mapTemplates s.fill) = b.deed d s step.instruction := by
  have hfile := Step.reference?_fill_of_not_comesToReference h
  cases hi : step.instruction with
  | uploadFile target path =>
    rw [hi] at hfile
    rw [Instruction.mapTemplates, deed_uploadFile, deed_uploadFile, Scope.fill_empty,
      filePath_mapPath (hfile path rfl)]
  | pasteImage target path =>
    rw [hi] at hfile
    rw [Instruction.mapTemplates, deed_pasteImage, deed_pasteImage, Scope.fill_empty,
      filePath_mapPath (hfile path rfl)]
  | ensureLogin rule =>
    rw [Instruction.mapTemplates, deed_ensureLogin, deed_ensureLogin, Option.map_map]
    simp only [Function.comp_def, Scope.fill_empty]
  | _ =>
    unfold Bench.deed
    simp only [Instruction.mapTemplates, Scope.fill_empty]

theorem filePath_congr {path : String}
    (h : ResourceResolver.reference? path = none → s.fill path = s'.fill path) :
    b.filePath d s path = b.filePath d s' path := by
  cases href : ResourceResolver.reference? path with
  | none => rw [filePath_of_none href, filePath_of_none href, h href]
  | some id => rw [filePath_of_some href, filePath_of_some href]

theorem fill_eq_of_file {target path : String}
    (h : ∀ template ∈ templates (.uploadFile target path), s.fill template = s'.fill template) :
    s.fill target = s'.fill target ∧
      (ResourceResolver.reference? path = none → s.fill path = s'.fill path) := by
  cases href : ResourceResolver.reference? path <;> simp_all [templates]

/-- Variables that fill in the templates alike make the same deed. -/
theorem deed_congr {i : Instruction} (h : ∀ template ∈ templates i, s.fill template = s'.fill template) :
    b.deed d s i = b.deed d s' i := by
  cases i with
  | uploadFile target path =>
    obtain ⟨htarget, hpath⟩ := fill_eq_of_file h
    rw [deed_uploadFile, deed_uploadFile, htarget, filePath_congr hpath]
  | pasteImage target path =>
    obtain ⟨htarget, hpath⟩ := fill_eq_of_file h
    rw [deed_pasteImage, deed_pasteImage, htarget, filePath_congr hpath]
  | ensureLogin rule =>
    have hurl : s.fill rule.checkUrl = s'.fill rule.checkUrl := h _ List.mem_cons_self
    have hselector : rule.loggedInSelector.map (fun target => b.selectors.resolve (s.fill target)) =
        rule.loggedInSelector.map fun target => b.selectors.resolve (s'.fill target) := by
      apply Option.map_congr
      intro target htarget
      rw [h target (List.mem_cons_of_mem _ (Option.mem_toList.2 htarget))]
    rw [deed_ensureLogin, deed_ensureLogin, hurl, hselector]
  | _ =>
    unfold Bench.deed
    simp_all [templates]

/-! ### Names that are not set -/

/-- Those of some names for which `P` holds, each once, in the order in which they first occur. -/
structure FirstOf (all : List String) (P : String → Prop) (names : List String) : Prop where
  nodup : names.Nodup
  mem_iff : ∀ name, name ∈ names ↔ name ∈ all ∧ P name
  ordered : names.Pairwise fun name other => all.idxOf name < all.idxOf other

theorem distinct_snoc (names : List String) (name : String) :
    distinct (names ++ [name]) =
      if (distinct names).contains name then distinct names else distinct names ++ [name] := by
  rw [distinct, List.foldl_append]
  rfl

theorem FirstOf.skip {all names : List String} {P : String → Prop} (h : FirstOf all P names)
    {name : String} (hname : P name → name ∈ names) : FirstOf (all ++ [name]) P names := by
  have hall : ∀ other ∈ names, (all ++ [name]).idxOf other = all.idxOf other := fun other hother =>
    List.idxOf_append_of_mem ((h.mem_iff other).1 hother).1
  constructor
  · exact h.nodup
  · intro other
    rw [h.mem_iff, List.mem_append, List.mem_singleton]
    constructor
    · exact fun hother => ⟨.inl hother.1, hother.2⟩
    · rintro ⟨hin | rfl, hP⟩
      · exact ⟨hin, hP⟩
      · exact (h.mem_iff other).1 (hname hP)
  · refine h.ordered.imp_of_mem ?_
    intro first second hfirst hsecond hlt
    rwa [hall first hfirst, hall second hsecond]

theorem FirstOf.snoc {all names : List String} {P : String → Prop} (h : FirstOf all P names)
    {name : String} (hP : P name) (hnew : name ∉ names) : FirstOf (all ++ [name]) P (names ++ [name]) := by
  have hfresh : name ∉ all := fun hin => hnew ((h.mem_iff name).2 ⟨hin, hP⟩)
  constructor
  · exact List.Nodup.append h.nodup (List.nodup_singleton name) (by simpa using hnew)
  · intro other
    simp only [List.mem_append, List.mem_singleton, h.mem_iff]
    constructor
    · rintro (⟨hin, hother⟩ | rfl)
      · exact ⟨.inl hin, hother⟩
      · exact ⟨.inr rfl, hP⟩
    · rintro ⟨hin | rfl, hother⟩
      · exact .inl ⟨hin, hother⟩
      · exact .inr rfl
  · have hbefore : ∀ other ∈ names, (all ++ [name]).idxOf other = all.idxOf other ∧
        all.idxOf other < all.length := by
      intro other hother
      have hin := ((h.mem_iff other).1 hother).1
      exact ⟨List.idxOf_append_of_mem hin, List.idxOf_lt_length_of_mem hin⟩
    have hlast : (all ++ [name]).idxOf name = all.length := by
      rw [List.idxOf_append_of_notMem hfresh]
      simp
    rw [List.pairwise_append]
    refine ⟨h.ordered.imp_of_mem ?_, List.pairwise_singleton _ _, ?_⟩
    · intro first second hfirst hsecond hlt
      rwa [(hbefore first hfirst).1, (hbefore second hsecond).1]
    · intro other hother last hin
      rw [List.mem_singleton] at hin
      rw [hin, hlast, (hbefore other hother).1]
      exact (hbefore other hother).2

theorem firstOf_distinct (p : String → Bool) (all : List String) :
    FirstOf all (fun name => p name = true) (distinct (all.filter p)) := by
  induction all using List.reverseRecOn with
  | nil => exact ⟨List.nodup_nil, by simp [distinct], List.Pairwise.nil⟩
  | append_singleton all name ih =>
    by_cases hp : p name = true
    · rw [List.filter_append, List.filter_cons_of_pos hp, List.filter_nil, distinct_snoc]
      split
      · rename_i hmem
        exact ih.skip fun _ => List.contains_iff_mem.1 hmem
      · rename_i hmem
        exact ih.snoc hp fun hin => hmem (List.contains_iff_mem.2 hin)
    · rw [List.filter_append, List.filter_cons_of_neg hp, List.filter_nil, List.append_nil]
      exact ih.skip fun h => absurd h hp

theorem flatMap_unset (s : Scope) (step : Step) :
    (templates step.instruction).flatMap s.unset = step.slotNames.filter fun name => !s.contains name := by
  rw [Step.slotNames, List.filter_flatMap]
  exact List.flatMap_congr fun template _ => s.unset_eq_filter template

theorem firstOf_unset {task : Task} (made : b.task d s step = .ok task) :
    FirstOf step.slotNames (fun name => s.get? name = none) task.unset := by
  obtain ⟨deed, -, rfl⟩ := of_map_eq_ok made
  have hfirst := firstOf_distinct (fun name => !s.contains name) step.slotNames
  simp only [flatMap_unset]
  simpa [Scope.contains] using hfirst

/-! ### Tasks -/

/-- Both are refused for the same reason, or are tasks that differ in the names not set at most. -/
def SameTask : Except Failure Task → Except Failure Task → Prop
  | .ok task, .ok task' =>
    task.deed = task'.deed ∧ task.action = task'.action ∧ task.timeout = task'.timeout
  | .error e, .error e' => e = e'
  | _, _ => False

theorem sameTask_filled (h : ¬ step.ComesToReference s) :
    SameTask (b.task d s step) (b.task d .empty (step.filled s)) := by
  have hdeed := deed_mapTemplates (b := b) (d := d) h
  rw [task, task, Step.filled, hdeed]
  cases b.deed d s step.instruction with
  | error e => rfl
  | ok deed => exact ⟨rfl, (Instruction.action_mapTemplates s.fill step.instruction).symm, rfl⟩

theorem task_congr (h : ∀ name ∈ step.slotNames, s.get? name = s'.get? name) :
    b.task d s step = b.task d s' step := by
  have hnames : ∀ template ∈ templates step.instruction, ∀ name ∈ slotNames template,
      s.get? name = s'.get? name := by
    intro template htemplate name hname
    exact h name (List.mem_flatMap.2 ⟨template, htemplate, hname⟩)
  have hdeed : b.deed d s step.instruction = b.deed d s' step.instruction :=
    deed_congr fun template htemplate => Scope.fill_congr (hnames template htemplate)
  have hunset : (templates step.instruction).flatMap s.unset =
      (templates step.instruction).flatMap s'.unset :=
    List.flatMap_congr fun template htemplate => Scope.unset_congr (hnames template htemplate)
  rw [task, task, hdeed, hunset]

/-- The filled in step has the templates that it had, each filled in. -/
theorem templates_filled (h : ¬ step.ComesToReference s) :
    templates (step.filled s).instruction = (templates step.instruction).map s.fill := by
  have hfile := Step.reference?_fill_of_not_comesToReference h
  cases hi : step.instruction with
  | uploadFile target path | pasteImage target path =>
    rw [hi] at hfile
    cases href : ResourceResolver.reference? path with
    | none =>
      simp [Step.filled, hi, Instruction.mapTemplates, templates, Instruction.mapPath_of_none href, href,
        hfile path rfl href]
    | some id =>
      simp [Step.filled, hi, Instruction.mapTemplates, templates, Instruction.mapPath_of_some href, href]
  | ensureLogin rule =>
    cases hselector : rule.loggedInSelector <;>
      simp [Step.filled, hi, Instruction.mapTemplates, templates, hselector]
  | _ => simp [Step.filled, hi, Instruction.mapTemplates, templates]

/-- A step is made ready by filling in its templates and then resolving what they have become. The
names it is told to lack are those of its templates, once each, and other variables do not count. -/
theorem task_fills_then_resolves (b : Bench) (d : Desk) (s : Scope) (step : Step) :
    (¬ step.ComesToReference s →
      SameTask (b.task d s step) (b.task d .empty (step.filled s)) ∧
        templates (step.filled s).instruction = (templates step.instruction).map s.fill) ∧
    (∀ task, b.task d s step = .ok task →
      FirstOf step.slotNames (fun name => s.get? name = none) task.unset) ∧
    (∀ s' : Scope, (∀ name ∈ step.slotNames, s.get? name = s'.get? name) →
      b.task d s step = b.task d s' step) :=
  ⟨fun h => ⟨sameTask_filled h, templates_filled h⟩, fun _ => firstOf_unset, fun _ => task_congr⟩

/-- A picture of which the folder is known, but neither its name nor where it goes. -/
def pasting : Step :=
  .ofInstruction (.pasteImage "#\x7b\x7bbox\x7d\x7d" "\x7b\x7bdir\x7d\x7d/\x7b\x7bfile\x7d\x7d")

theorem task_fills_then_resolves_pasting :
    ¬ pasting.ComesToReference (Scope.empty.set "dir" "img") ∧
      SameTask
        (task ⟨.default, ⟨.empty, none⟩, .fixed []⟩ (.ofDisk ⟨[], []⟩) (Scope.empty.set "dir" "img") pasting)
        (task ⟨.default, ⟨.empty, none⟩, .fixed []⟩ (.ofDisk ⟨[], []⟩) .empty
          (.ofInstruction (.pasteImage "#\x7b\x7bbox\x7d\x7d" "img/\x7b\x7bfile\x7d\x7d"))) ∧
      ∃ made, task ⟨.default, ⟨.empty, none⟩, .fixed []⟩ (.ofDisk ⟨[], []⟩) (Scope.empty.set "dir" "img")
          pasting = .ok made ∧
        FirstOf ["box", "dir", "file"] (fun name => (Scope.empty.set "dir" "img").get? name = none)
          made.unset := by
  have hfile : ¬ pasting.ComesToReference (Scope.empty.set "dir" "img") := by
    rintro ⟨path, hpath, -, href⟩
    obtain rfl := Option.some.inj hpath
    revert href
    decide +kernel
  obtain ⟨same, names, -⟩ := task_fills_then_resolves ⟨.default, ⟨.empty, none⟩, .fixed []⟩
    (.ofDisk ⟨[], []⟩) (Scope.empty.set "dir" "img") pasting
  have hfilled : pasting.filled (Scope.empty.set "dir" "img") =
      .ofInstruction (.pasteImage "#\x7b\x7bbox\x7d\x7d" "img/\x7b\x7bfile\x7d\x7d") := by
    decide +kernel
  have hnames : pasting.slotNames = ["box", "dir", "file"] := by decide +kernel
  refine ⟨hfile, hfilled ▸ (same hfile).1, _, rfl, hnames ▸ names _ rfl⟩

end Bench

end Rehearsal
