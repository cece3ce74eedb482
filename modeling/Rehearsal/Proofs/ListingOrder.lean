import Mathlib.Data.List.Perm.Basic
import Rehearsal.Proofs.MapsByName
import Rehearsal.Run.Prepared

/-! # The order in which maps are read

Nothing says in which order the entries of a folder are listed, nor in which a set of maps is gone
through for the one with an identifier. Both orders are without effect exactly if names and identifiers
each tell which map is meant: the set is then the same, so is the default map of a scenario, and every
target comes to the same selectors. Of two maps with one name the one read last is kept, and of two with
one identifier the one that comes first is found.
-/
namespace Rehearsal

namespace UiMapSet

variable {s s' : UiMapSet} {maps maps' : List UiMap} {names : List String}

/-- Among the maps there are no two with one name. -/
def NamesTell (maps : List UiMap) : Prop := ∀ a ∈ maps, ∀ b ∈ maps, a.name = b.name → a = b

/-- Among the maps there are no two with this identifier. -/
def IdTells (maps : List UiMap) (id : String) : Prop :=
  ∀ a ∈ maps, ∀ b ∈ maps, a.id = some id → b.id = some id → a = b

instance (maps : List UiMap) : Decidable (NamesTell maps) :=
  inferInstanceAs (Decidable (∀ a ∈ maps, ∀ b ∈ maps, a.name = b.name → a = b))

instance (maps : List UiMap) (id : String) : Decidable (IdTells maps id) :=
  inferInstanceAs (Decidable (∀ a ∈ maps, ∀ b ∈ maps, a.id = some id → b.id = some id → a = b))

instance (s s' : UiMapSet) : Decidable (s.Alike s') := inferInstanceAs (Decidable (s.maps.Perm s'.maps))

/-! ## Sets from lists of maps -/

theorem mem_ofList (tells : NamesTell maps) {m : UiMap} : m ∈ (ofList maps).maps ↔ m ∈ maps := by
  have hheld : m ∈ (ofList maps).maps ↔ maps.reverse.find? (·.name == m.name) = some m := by
    rw [← get?_ofList, (keyed_ofList maps).get?_eq_some_iff]
    simp
  rw [hheld]
  constructor
  · intro hfound
    exact List.mem_reverse.mp (List.mem_of_find?_eq_some hfound)
  · intro hmem
    obtain ⟨n, hn⟩ : ∃ n, maps.reverse.find? (·.name == m.name) = some n :=
      Option.isSome_iff_exists.mp (List.find?_isSome.mpr ⟨m, List.mem_reverse.mpr hmem, by simp⟩)
    have hname : n.name = m.name := by simpa using List.find?_some hn
    rw [hn, tells n (List.mem_reverse.mp (List.mem_of_find?_eq_some hn)) m hmem hname]

theorem idTells_ofList (tells : NamesTell maps) {id : String} :
    IdTells (ofList maps).maps id ↔ IdTells maps id := by
  simp only [IdTells, mem_ofList tells]

theorem NamesTell.perm (tells : NamesTell maps) (perm : maps'.Perm maps) : NamesTell maps' :=
  fun a ha b hb => tells a (perm.mem_iff.mp ha) b (perm.mem_iff.mp hb)

theorem alike_ofList (tells : NamesTell maps) (perm : maps'.Perm maps) :
    (ofList maps').Alike (ofList maps) := by
  have hnodup (maps : List UiMap) : (ofList maps).maps.Nodup := List.Nodup.of_map _ (keyed_ofList maps)
  apply (List.perm_ext_iff_of_nodup (hnodup maps') (hnodup maps)).mpr
  intro m
  rw [mem_ofList tells, mem_ofList (tells.perm perm), perm.mem_iff]

/-- The map that is read last is in the set. -/
theorem get?_of_last {read : String → Option UiMap} {entry : String} {m : UiMap} (h : read entry = some m)
    (entries : List String) : (ofList ((entries ++ [entry]).filterMap read)).get? m.name = some m := by
  rw [List.filterMap_append, List.filterMap_cons_some h, List.filterMap_nil, ofList_concat, get?_insert,
    if_pos rfl]

/-- The order in which entries are read is without effect exactly if names tell which map is meant. -/
theorem alike_of_perm_iff {read : String → Option UiMap} :
    (∀ entries : List String, entries.Perm names →
      (ofList (entries.filterMap read)).Alike (ofList (names.filterMap read))) ↔
      NamesTell (names.filterMap read) := by
  constructor
  · intro alike a ha b hb hname
    -- Each of the two maps is in the set if its entry is read last.
    have hlast : ∀ m ∈ names.filterMap read,
        (ofList (names.filterMap read)).get? m.name = some m := by
      intro m hm
      obtain ⟨entry, hentry, hread⟩ := List.mem_filterMap.mp hm
      have hperm : (names.erase entry ++ [entry]).Perm names :=
        List.perm_append_comm.trans (List.perm_cons_erase hentry).symm
      have hsame := ((keyed_ofList _).alike_iff (keyed_ofList _)).mp (alike _ hperm) m.name
      rw [← hsame, get?_of_last hread]
    have hb' := hlast b hb
    rw [← hname, hlast a ha] at hb'
    exact Option.some.inj hb'
  · intro tells entries perm
    exact alike_ofList tells (perm.filterMap read)

/-! ## Looking for a map -/

theorem find?_of_perm {p : UiMap → Bool} (perm : maps'.Perm maps)
    (alone : ∀ a ∈ maps, ∀ b ∈ maps, p a = true → p b = true → a = b) : maps'.find? p = maps.find? p := by
  apply Option.ext
  intro m
  have hfound : ∀ {maps₁ maps₂ : List UiMap}, maps₁.Perm maps → maps₂.Perm maps →
      maps₁.find? p = some m → maps₂.find? p = some m := by
    intro maps₁ maps₂ perm₁ perm₂ hm
    have hmem := perm₁.mem_iff.mp (List.mem_of_find?_eq_some hm)
    obtain ⟨n, hn⟩ : ∃ n, maps₂.find? p = some n :=
      Option.isSome_iff_exists.mp
        (List.find?_isSome.mpr ⟨m, perm₂.mem_iff.mpr hmem, List.find?_some hm⟩)
    have hn' := perm₂.mem_iff.mp (List.mem_of_find?_eq_some hn)
    rw [hn, alone n hn' m hmem (List.find?_some hn) (List.find?_some hm)]
  exact ⟨hfound perm (.refl _), hfound (.refl _) perm⟩

theorem findById?_of_alike {id : String} (tells : IdTells s.maps id) (alike : s'.Alike s) :
    s'.findById? id = s.findById? id :=
  find?_of_perm alike fun a ha b hb hida hidb => tells a ha b hb (by simpa using hida) (by simpa using hidb)

/-- The order in which a set is gone through is without effect exactly if an identifier tells which map
is meant. -/
theorem findById?_alike_iff {id : String} :
    (∀ s' : UiMapSet, s'.Alike s → s'.findById? id = s.findById? id) ↔ IdTells s.maps id := by
  constructor
  · intro same a ha b hb hida hidb
    -- The one that stands first is found.
    have hfirst : ∀ m ∈ s.maps, m.id = some id → s.findById? id = some m := by
      intro m hm hid
      rw [← same ⟨m :: s.maps.erase m⟩ (List.perm_cons_erase hm).symm]
      exact List.find?_cons_of_pos (by simpa using hid)
    have hb' := hfirst b hb hidb
    rw [hfirst a ha hida] at hb'
    exact Option.some.inj hb'
  · intro tells s' alike
    exact findById?_of_alike tells alike

/-! ## Folders -/

section

variable (disk : Disk) (project : Option String) (folder : Disk.Path)

/-- The map in the file of an entry, if the project may see it. -/
def seen? (entry : String) : Option UiMap :=
  if (folder.join entry).extension? == some "json" then
    (loadFile disk (folder.join entry)).toOption.filter (·.isVisible project)
  else none

/-- The maps in the files of some entries that the project may see, in their order. -/
def seen (entries : List String) : List UiMap := entries.filterMap (seen? disk project folder)

/-- The set made of these, when the entries are read in their order. -/
def loaded (entries : List String) : UiMapSet := (ofEntries disk project folder entries).1

variable {disk project folder}

theorem ofEntries_concat (entries : List String) (entry : String) :
    loaded disk project folder (entries ++ [entry]) =
      if (folder.join entry).extension? == some "json" then
        (addFile disk project (loaded disk project folder entries) (folder.join entry)).1
      else loaded disk project folder entries := by
  unfold loaded ofEntries
  rw [List.map_append, List.filter_append, List.foldl_append]
  cases hjson : (folder.join entry).extension? == some "json" <;> simp [hjson]

theorem loaded_eq (entries : List String) :
    loaded disk project folder entries = ofList (seen disk project folder entries) := by
  induction entries using List.reverseRecOn with
  | nil => rfl
  | append_singleton entries entry ih =>
    have hseen : seen disk project folder (entries ++ [entry]) =
        seen disk project folder entries ++ (seen? disk project folder entry).toList := by
      cases hentry : seen? disk project folder entry <;> simp [seen, hentry]
    rw [ofEntries_concat, ih, hseen, seen?]
    by_cases hjson : ((folder.join entry).extension? == some "json") = true
    · rw [if_pos hjson, if_pos hjson, addFile]
      cases loadFile disk (folder.join entry) with
      | error reason => simp [Except.toOption]
      | ok m =>
        by_cases hvisible : m.isVisible project = true
        · simp [Except.toOption, Option.filter, hvisible, ofList_concat]
        · simp [Except.toOption, Option.filter, hvisible]
    · rw [if_neg hjson, if_neg hjson]
      simp

/-- Of files that all hold maps. -/
theorem seen_of_files {entries : List String}
    (json : ∀ entry ∈ entries, ((folder.join entry).extension? == some "json") = true)
    (holds : entries.map (fun entry => (loadFile disk (folder.join entry)).toOption) = maps.map some) :
    seen disk project folder entries = maps.filter (·.isVisible project) := by
  have hread : seen disk project folder entries =
      (entries.map fun entry => (loadFile disk (folder.join entry)).toOption).filterMap
        (Option.filter (·.isVisible project)) := by
    rw [List.filterMap_map]
    exact List.filterMap_congr fun entry hentry => if_pos (json entry hentry)
  rw [hread, holds, List.filterMap_map, ← List.filterMap_eq_filter]
  rfl

theorem loadFolder_of_list (listed : disk.list folder = .ok names) :
    (loadFolder disk folder project).1 = .ok (loaded disk project folder names) := by
  have hthere : disk.has folder = true := by
    unfold Disk.list at listed
    unfold Disk.has
    cases hlocate : disk.locate folder with
    | error fault =>
      rw [hlocate] at listed
      cases listed
    | ok found =>
      obtain ⟨at_, _ | _ | content⟩ := found
      · rw [hlocate] at listed
        cases listed
      · rfl
      · rfl
  simp [loadFolder, hthere, listed, loaded]

end

end UiMapSet

open UiMapSet

variable {disk : Disk} {project : Option String} {folder : Disk.Path} {names : List String}

/-- The selectors that preparing a scenario may come to: the folder's entries are read in some order, and
in some order the set is gone through for the default map. -/
structure Furnished (disk : Disk) (project : Option String) (folder : Disk.Path) (names : List String)
    (scenario : Scenario) (s : Selectors) : Prop where
  maps : ∃ entries, entries.Perm names ∧ s.maps.Alike (loaded disk project folder entries)
  default : s.defaultMap = (Prepared.defaultMap s.maps scenario).1

theorem Selectors.resolve_congr {s s' : Selectors} (hget : ∀ name, s.maps.get? name = s'.maps.get? name)
    (hdefault : s.defaultMap = s'.defaultMap) (target : String) : s.resolve target = s'.resolve target := by
  have hsame : s.maps.get? = s'.maps.get? := funext hget
  simp only [resolve, referenced?, inDefault?, hsame, hdefault]

/-- With names and identifiers that tell which map is meant, every preparation comes to the same. -/
theorem Furnished.same {scenario : Scenario} {s s' : Selectors}
    (h : Furnished disk project folder names scenario s)
    (h' : Furnished disk project folder names scenario s') (tells : NamesTell (seen disk project folder names))
    (bound : ∀ id ∈ scenario.uiMapId, IdTells (seen disk project folder names) id) :
    s.maps.Alike s'.maps ∧ s.defaultMap = s'.defaultMap ∧
      ∀ target, s.resolve target = s'.resolve target := by
  have hloaded : ∀ {s : Selectors}, Furnished disk project folder names scenario s →
      s.maps.Alike (ofList (seen disk project folder names)) := by
    intro s hs
    obtain ⟨entries, perm, alike⟩ := hs.maps
    rw [loaded_eq] at alike
    exact alike.trans (alike_ofList tells (perm.filterMap _))
  have halike : s.maps.Alike s'.maps := (hloaded h).trans (hloaded h').symm
  have hkeyed := (hloaded h).keyed (keyed_ofList _)
  have hkeyed' := (hloaded h').keyed (keyed_ofList _)
  have hdefault : s.defaultMap = s'.defaultMap := by
    rw [h.default, h'.default]
    unfold Prepared.defaultMap
    cases hid : scenario.uiMapId with
    | none => rfl
    | some id =>
      have hseen : IdTells s'.maps.maps id := fun a ha b hb =>
        (idTells_ofList tells).mpr (bound id hid) a ((hloaded h').mem_iff.mp ha) b ((hloaded h').mem_iff.mp hb)
      simp only [findById?_of_alike hseen halike]
  exact ⟨halike, hdefault, Selectors.resolve_congr ((hkeyed.alike_iff hkeyed').mp halike) hdefault⟩

theorem furnished_of_furnish {config : Config} {desk : Desk} {source : ScenarioSource} {scenario : Scenario}
    {p : Prepared} {lines : List LogLine} (listed : desk.disk.list config.uiMapsDir = .ok names)
    (h : Prepared.furnish config desk source scenario = (.ok p, lines)) :
    Furnished desk.disk (some p.projectId) config.uiMapsDir names scenario p.selectors := by
  unfold Prepared.furnish at h
  split at h
  · cases h
  · next projectId _ =>
    have hload : (loadFolder desk.disk config.uiMapsDir (some projectId)).1 = _ := loadFolder_of_list listed
    split at h
    · cases h
    · next maps more hmaps =>
      rw [hmaps] at hload
      cases hload
      cases h
      exact ⟨⟨names, .refl _, .refl _⟩, rfl⟩

/-- Two maps of one name that belong to two projects, and a map for all with the identifier of the second. -/
def threeFiles : Disk :=
  let file (text : String) : Disk.Node := .file text.toUTF8.data.toList
  ⟨[], [(["m"], .folder),
    (["m", "a.json"], file
      "\x7b\"id\":\"1\",\"name\":\"login\",\"project_id\":\"shop\",\"elements\":\x7b\"user\":\x7b\"primary\":\"#a\"\x7d\x7d\x7d"),
    (["m", "b.json"], file
      "\x7b\"id\":\"2\",\"name\":\"login\",\"project_id\":\"office\"\x7d"),
    (["m", "c.json"], file
      "\x7b\"id\":\"2\",\"name\":\"common\",\"elements\":\x7b\"user\":\x7b\"primary\":\"#c\"\x7d\x7d\x7d")]⟩

def threeMaps : List UiMap :=
  [⟨some "1", "login", some "shop", [("user", ⟨"#a", [], none⟩)]⟩, ⟨some "2", "login", some "office", []⟩,
    ⟨some "2", "common", none, [("user", ⟨"#c", [], none⟩)]⟩]

theorem list_threeFiles : threeFiles.list "m" = .ok ["a.json", "b.json", "c.json"] := by
  rfl

theorem loadFile_threeFiles :
    ["a.json", "b.json", "c.json"].map (fun entry => (loadFile threeFiles (Disk.Path.join "m" entry)).toOption) =
      threeMaps.map some := by
  decide +kernel

theorem seen_threeFiles (project : Option String) :
    seen threeFiles project "m" ["a.json", "b.json", "c.json"] = threeMaps.filter (·.isVisible project) := by
  refine seen_of_files ?_ loadFile_threeFiles
  decide

end Rehearsal
