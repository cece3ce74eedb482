import Rehearsal.Disk.Desk
import Rehearsal.Disk.Listing
import Rehearsal.Scenario.Basic

/-! # Sources of scenarios

Where scenarios are found by their identifiers. In a folder the scenario `id` is the file `id.json`;
when the document gives itself another identifier that is only worth a warning.
-/
namespace Rehearsal

/-- A source answers with a scenario, with nothing when there is none, or with a failure. The
identifiers it may know are listed. -/
structure ScenarioSource where
  load : Desk → String → Except Failure (Option Scenario) × List LogLine
  ids : Desk → List String
  listed : ∀ {d : Desk} {id : String} {s : Scenario}, (load d id).1 = .ok (some s) → id ∈ ids d

namespace ScenarioSource

open Disk (Path)

/-- Of scenarios with the same identifier the last counts. -/
def memory (scenarios : List Scenario) : ScenarioSource where
  load _ id := (.ok (scenarios.reverse.find? (·.id == id)), [])
  ids _ := scenarios.map (·.id)
  listed := by
    intro d id s h
    have hfound := Except.ok.inj h
    have hmem : s ∈ scenarios := List.mem_reverse.mp (List.mem_of_find?_eq_some hfound)
    have hid : s.id = id := by simpa using List.find?_some hfound
    exact List.mem_map.mpr ⟨s, hmem, hid⟩

/-- The scenario in a file; nothing when there is no file. -/
def loadFile (disk : Disk) (path : Path) : Except Failure (Option Scenario) :=
  match disk.readText path with
  | .error .missing => .ok none
  | .error f => .error (.disk f.message)
  | .ok text =>
    match Scenario.ofText text with
    | .error fault => .error (.document (.inFile path fault))
    | .ok s => .ok (some s)

/-- An identifier that is no path of its own. -/
def isFileId (id : String) : Bool :=
  !id.toList.any (fun c => c = '/' || c = '\\') && !Text.startsWith id "."

def loadFrom (folder : Path) (d : Desk) (id : String) :
    Except Failure (Option Scenario) × List LogLine :=
  if ! isFileId id then (.error (.document (.scenarioId id)), [])
  else
    let path := folder.join (id ++ ".json")
    match loadFile d.disk path with
    | .error e => (.error e, [])
    | .ok none => (.ok none, [])
    | .ok (some s) =>
      (.ok (some s),
        if s.id = id then []
        else [.warn ("场景文件 " ++ path ++ " 中的 id 为 '" ++ s.id ++ "'，与文件名不一致")])

/-- The identifier whose scenario is kept in a file of this name. -/
def idOfFile? (name : String) : Option String :=
  (Text.afterStart? ".json".toList.reverse name.toList.reverse).map fun rest =>
    String.ofList rest.reverse

theorem idOfFile?_append (id : String) : idOfFile? (id ++ ".json") = some id := by
  have h : (id ++ ".json").toList.reverse = ".json".toList.reverse ++ id.toList.reverse := by simp
  rw [idOfFile?, h, Text.afterStart?_append]
  simp

/-- The identifiers of the files in a folder. -/
def folderIds (folder : Path) (d : Desk) : List String :=
  match d.disk.list folder.folder with
  | .ok names => names.filterMap idOfFile?
  | .error _ => []

theorem locate_of_loadFile {disk : Disk} {path : Path} {s : Scenario}
    (h : loadFile disk path = .ok (some s)) :
    ∃ at_ node, disk.locate path = .ok (at_, some node) := by
  unfold loadFile at h
  cases ht : disk.readText path with
  | error fault => rw [ht] at h; cases fault <;> cases h
  | ok text =>
    cases hl : disk.locate path with
    | error fault => simp [Disk.readText, Disk.readBytes, hl, bind, Except.bind] at ht
    | ok found =>
      obtain ⟨at_, node⟩ := found
      cases node with
      | none => simp [Disk.readText, Disk.readBytes, hl, bind, Except.bind] at ht
      | some node => exact ⟨at_, node, rfl⟩

theorem mem_folderIds {folder : Path} {d : Desk} {id : String} {s : Scenario}
    (h : (loadFrom folder d id).1 = .ok (some s)) : id ∈ folderIds folder d := by
  by_cases hid : isFileId id = true
  · simp only [loadFrom, hid, Bool.not_true, Bool.false_eq_true, ↓reduceIte] at h
    cases hf : loadFile d.disk (folder.join (id ++ ".json")) with
    | error e => rw [hf] at h; cases h
    | ok found =>
      cases found with
      | none => rw [hf] at h; cases h
      | some t =>
        obtain ⟨at_, node, hl⟩ := locate_of_loadFile hf
        have hslash : '/' ∉ (id ++ ".json").toList := by
          intro hmem
          rw [String.toList_append, List.mem_append] at hmem
          rcases hmem with hmem | hmem
          · simp only [isFileId, Bool.and_eq_true, Bool.not_eq_true', List.any_eq_false] at hid
            exact hid.1 '/' hmem (by decide)
          · revert hmem; decide
        have hlen : 5 ≤ (id ++ ".json").toList.length := by simp
        have hne : id ++ ".json" ≠ "" := by intro he; rw [he] at hlen; revert hlen; decide
        have hdot : id ++ ".json" ≠ "." := by intro he; rw [he] at hlen; revert hlen; decide
        have hdots : id ++ ".json" ≠ ".." := by intro he; rw [he] at hlen; revert hlen; decide
        obtain ⟨names, hnames, hmem⟩ := Disk.mem_list_of_locate_join hslash hne hdot hdots hl
        rw [folderIds, hnames]
        exact List.mem_filterMap.mpr ⟨_, hmem, idOfFile?_append id⟩
  · simp [loadFrom, hid] at h

def folder (folder : Path) : ScenarioSource where
  load := loadFrom folder
  ids := folderIds folder
  listed := mem_folderIds

end ScenarioSource

end Rehearsal
