import Rehearsal.Proofs.FileChanges
import Rehearsal.Session.Store

/-! # Where sessions are saved

Every file of the store stands two names below its root, one for each key, with the drafts beside it.
The names of drafts and of files never meet, and a folder made for the store takes the place of neither.
-/
namespace Rehearsal

open Disk (Path)

namespace Disk

/-- A name that something in a folder can have. -/
structure Path.IsEntry (name : String) : Prop where
  isName : Path.IsName name
  noDot : name ≠ "."
  noDots : name ≠ ".."

theorem Path.IsEntry.of_length {name : String} (hslash : '/' ∉ name.toList) (h : 2 < name.length) :
    IsEntry name := by
  have hne : ∀ other : String, other.length ≤ 2 → name ≠ other := by
    rintro other hshort rfl
    omega
  exact ⟨⟨hne _ (by decide), hslash⟩, hne _ (by decide), hne _ (by decide)⟩

theorem start_join {name : String} (h : '/' ∉ name.toList) (d : Disk) (p : Path) :
    d.start (p.join name) = d.start p := by
  by_cases hp : p = ""
  · subst hp
    have hjoin : Path.join "" name = name := by simp [Path.join, Path.not_isAbsolute h]
    have hempty : Path.isAbsolute "" = false := by decide
    simp only [start, hjoin, Path.not_isAbsolute h, hempty]
  · obtain ⟨rest, hrest⟩ := Path.join_eq_append (p := p) h
    simp [start, hrest, Path.isAbsolute_append hp]

theorem Path.IsEntry.names_join {name : String} (h : IsEntry name) (p : Path) :
    names (p.join name) = names p ++ [name] :=
  Path.names_join h.isName.2 h.isName.1 p

theorem place_join {name : String} (h : Path.IsEntry name) (d : Disk) (p : Path) :
    d.place (p.join name) = d.place p ++ [name] := by
  rw [place, start_join h.isName.2, h.names_join, lead_append, lead_cons, lead_nil,
    enter_of_ne h.noDot h.noDots]
  rfl

end Disk

open Disk.Path (IsEntry)

theorem Session.isEntry_of_isSegment {value : String} (h : isSegment value = true) :
    IsEntry value := by
  simp only [isSegment, Bool.and_eq_true, Bool.not_eq_true', bne_iff_ne, ne_eq, List.any_eq_false,
    Bool.or_eq_true, decide_eq_true_eq, not_or] at h
  obtain ⟨⟨⟨hblank, hslash⟩, hdots⟩, hdot⟩ := h
  refine ⟨⟨?_, fun hmem => (hslash '/' hmem).1 rfl⟩, hdot, hdots⟩
  rintro rfl
  simp [Text.allBlank] at hblank

namespace SessionStore

theorem checkKey_eq_ok {key : Session.Key} (h : checkKey key = .ok ()) :
    Session.isSegment key.project = true ∧ Session.isSegment key.state = true := by
  by_cases hp : Session.isSegment key.project = true
  · by_cases hs : Session.isSegment key.state = true
    · exact ⟨hp, hs⟩
    · simp [checkKey, Session.checkSegment, hp, hs] at h
  · simp [checkKey, Session.checkSegment, hp] at h

theorem isEntry_project {key : Session.Key} (h : checkKey key = .ok ()) : IsEntry key.project :=
  Session.isEntry_of_isSegment (checkKey_eq_ok h).1

theorem isEntry_file {key : Session.Key} (h : checkKey key = .ok ()) :
    IsEntry (key.state ++ ".json") := by
  have hslash := (Session.isEntry_of_isSegment (checkKey_eq_ok h).2).isName.2
  have hend : ".json".length = 5 := by decide
  exact IsEntry.of_length (by simp [hslash]) (by rw [String.length_append, hend]; omega)

theorem slash_not_mem_tag (n : Nat) : '/' ∉ (Desk.tag n).toList := by
  have hdigit : ∀ n, Text.hexDigit n ≠ '/' := by
    intro n
    have hsixteen : ∀ digit < 16,
        (if digit < 10 then Char.ofNat (48 + digit) else Char.ofNat (87 + digit)) ≠ '/' := by decide
    exact hsixteen (n % 16) (Nat.mod_lt _ (by decide))
  simp only [Desk.tag, String.toList_ofList, List.mem_map, not_exists, not_and]
  exact fun i _ => hdigit _

theorem isEntry_draft {key : Session.Key} (h : checkKey key = .ok ()) {tag : String}
    (htag : '/' ∉ tag.toList) : IsEntry ("." ++ key.state ++ "." ++ tag ++ ".tmp") := by
  have hslash := (Session.isEntry_of_isSegment (checkKey_eq_ok h).2).isName.2
  have hend : ".tmp".length = 4 := by decide
  exact IsEntry.of_length (by simp [hslash, htag]) (by rw [String.length_append, hend]; omega)

theorem place_file {key : Session.Key} (h : checkKey key = .ok ()) (d : Disk) (root : Path) :
    d.place (fileOf root key) = d.place root ++ [key.project, key.state ++ ".json"] := by
  rw [fileOf, folderOf, Disk.place_join (isEntry_file h), Disk.place_join (isEntry_project h),
    List.append_assoc]
  rfl

theorem place_draft {key : Session.Key} (h : checkKey key = .ok ()) (d : Disk) (root : Path) (n : Nat) :
    d.place (draftOf root key (Desk.tag n)) =
      d.place root ++ [key.project, "." ++ key.state ++ "." ++ Desk.tag n ++ ".tmp"] := by
  rw [draftOf, folderOf, Disk.place_join (isEntry_draft h (slash_not_mem_tag n)),
    Disk.place_join (isEntry_project h), List.append_assoc]
  rfl

theorem state_of_fileName {state state' : String} (h : state ++ ".json" = state' ++ ".json") :
    state = state' :=
  String.toList_injective (by simpa using congrArg String.toList h)

/-- The names of files and of drafts end differently. -/
theorem fileName_ne_draftName (state state' tag : String) :
    state ++ ".json" ≠ "." ++ state' ++ "." ++ tag ++ ".tmp" := by
  intro h
  have hlast := congrArg (fun name => name.toList.getLast?) h
  simp only [String.toList_append] at hlast
  rw [List.getLast?_append_of_ne_nil _ (by decide), List.getLast?_append_of_ne_nil _ (by decide)] at hlast
  exact absurd hlast (by decide)

/-- Two keys never have one file. -/
theorem key_of_place_file {key key' : Session.Key} (h : checkKey key = .ok ())
    (h' : checkKey key' = .ok ()) {d : Disk} {root : Path}
    (heq : d.place (fileOf root key) = d.place (fileOf root key')) : key = key' := by
  rw [place_file h, place_file h'] at heq
  simp only [List.append_cancel_left_eq, List.cons.injEq, and_true] at heq
  obtain ⟨hproject, hfile⟩ := heq
  obtain ⟨project, state⟩ := key
  obtain ⟨project', state'⟩ := key'
  exact congrArg₂ Session.Key.mk hproject (state_of_fileName hfile)

theorem file_ne_draft {key key' : Session.Key} (h : checkKey key = .ok ())
    (h' : checkKey key' = .ok ()) {d : Disk} {root : Path} (n : Nat) :
    d.place (fileOf root key) ≠ d.place (draftOf root key' (Desk.tag n)) := by
  intro heq
  rw [place_file h, place_draft h'] at heq
  simp only [List.append_cancel_left_eq, List.cons.injEq, and_true] at heq
  exact fileName_ne_draftName _ _ _ heq.2

/-- Drafts at one place have one path. -/
theorem draft_of_place {key key' : Session.Key} (h : checkKey key = .ok ())
    (h' : checkKey key' = .ok ()) {d : Disk} {root : Path} {n n' : Nat}
    (heq : d.place (draftOf root key (Desk.tag n)) = d.place (draftOf root key' (Desk.tag n'))) :
    draftOf root key (Desk.tag n) = draftOf root key' (Desk.tag n') := by
  rw [place_draft h, place_draft h'] at heq
  simp only [List.append_cancel_left_eq, List.cons.injEq, and_true] at heq
  rw [draftOf, draftOf, folderOf, folderOf, heq.1, heq.2]

end SessionStore

/-! ## What changes in the store -/

open SessionStore (checkKey folderOf fileOf)
open Disk (Housed lead)

/-- A place two names below the root of the store. -/
def Stored (base at_ : List String) : Prop := ∃ project name, at_ = base ++ [project, name]

/-- Folders stay; outside the store's files only folders are new; of the files only those at touched
places change. -/
structure Changes (base : List String) (touched : List String → Prop) (d d' : Disk) : Prop where
  cwd : d'.cwd = d.cwd
  folders : ∀ at_, d.node? at_ = some .folder → d'.node? at_ = some .folder
  outside : ∀ at_, ¬ Stored base at_ →
    d'.node? at_ = d.node? at_ ∨ d.node? at_ = none ∧ d'.node? at_ = some .folder
  inside : ∀ at_, Stored base at_ → ¬ touched at_ → d'.node? at_ = d.node? at_

namespace Changes

variable {base at_ : List String} {touched touched' : List String → Prop} {d d' d'' : Disk}

theorem refl (base : List String) (touched : List String → Prop) (d : Disk) :
    Changes base touched d d :=
  ⟨rfl, fun _ h => h, fun _ _ => .inl rfl, fun _ _ _ => rfl⟩

theorem mono (h : Changes base touched d d') (hle : ∀ at_, touched at_ → touched' at_) :
    Changes base touched' d d' :=
  ⟨h.cwd, h.folders, h.outside, fun at_ hs ht => h.inside at_ hs (mt (hle at_) ht)⟩

theorem trans (h : Changes base touched d d') (h' : Changes base touched d' d'') :
    Changes base touched d d'' := by
  refine ⟨h'.cwd.trans h.cwd, fun at_ hf => h'.folders at_ (h.folders at_ hf), ?_,
    fun at_ hs ht => (h'.inside at_ hs ht).trans (h.inside at_ hs ht)⟩
  intro at_ hs
  rcases h.outside at_ hs with hsame | ⟨hnone, hfolder⟩
  · rcases h'.outside at_ hs with hsame' | ⟨hnone', hfolder'⟩
    · exact .inl (hsame'.trans hsame)
    · exact .inr ⟨hsame.symm.trans hnone', hfolder'⟩
  · exact .inr ⟨hnone, h'.folders at_ hfolder⟩

theorem put_file (hs : Stored base at_) (hn : d.node? at_ ≠ some .folder) (content : Disk.Bytes) :
    Changes base (· = at_) d (d.put at_ (.file content)) := by
  refine ⟨rfl, fun other hf => ?_, fun other ho => .inl ?_, fun other _ hne => ?_⟩
  · rw [Disk.node?_put_of_ne (by rintro rfl; exact hn hf), hf]
  · exact Disk.node?_put_of_ne (by rintro rfl; exact ho hs) d _
  · exact Disk.node?_put_of_ne hne d _

theorem remove_file (hs : Stored base at_) (hn : d.node? at_ ≠ some .folder) :
    Changes base (· = at_) d (d.remove at_) := by
  refine ⟨rfl, fun other hf => ?_, fun other ho => .inl ?_, fun other _ hne => ?_⟩
  · rw [Disk.node?_remove_of_ne (by rintro rfl; exact hn hf), hf]
  · exact Disk.node?_remove_of_ne (by rintro rfl; exact ho hs) d
  · exact Disk.node?_remove_of_ne hne d

theorem move_file {source target : List String} (hsource : Stored base source)
    (htarget : Stored base target) (hne : target ≠ source) (hn : d.node? source ≠ some .folder)
    (hn' : d.node? target ≠ some .folder) (content : Disk.Bytes) :
    Changes base (fun at_ => at_ = source ∨ at_ = target) d
      ((d.remove source).put target (.file content)) := by
  have hremoved := remove_file hsource hn
  have hput : Changes base (· = target) (d.remove source) _ :=
    put_file htarget (by rwa [Disk.node?_remove_of_ne hne]) content
  exact (hremoved.mono fun _ => .inl).trans (hput.mono fun _ => .inr)

end Changes

theorem Stored.ne_nil {base at_ : List String} (h : Stored base at_) : at_ ≠ [] := by
  obtain ⟨project, name, rfl⟩ := h
  simp

section

variable {root : Path} {disk : Disk} {key : Session.Key}

theorem stored_file (h : checkKey key = .ok ()) (disk : Disk) (root : Path) :
    Stored (disk.place root) (disk.place (fileOf root key)) :=
  ⟨_, _, SessionStore.place_file h disk root⟩

/-- What is no folder yet on the way to a folder of the store is no place of a file. -/
theorem not_stored_of_way (hdisk : disk.Grounded) (hroot : disk.Climbs (disk.start root) root.names)
    (hkey : checkKey key = .ok ()) {way : List String} (hway : way <+: (folderOf root key).names)
    (hn : disk.node? (lead (disk.start root) way) ≠ some .folder) :
    ¬ Stored (disk.place root) (lead (disk.start root) way) := by
  have hentry := SessionStore.isEntry_project hkey
  rintro ⟨project, name, hstored⟩
  have hlength := congrArg List.length hstored
  simp only [List.length_append, List.length_cons, List.length_nil] at hlength
  rw [folderOf, hentry.names_join] at hway
  rcases List.prefix_concat_iff.mp hway with rfl | ⟨rest, hrest⟩
  · rw [Disk.lead_append, Disk.lead_cons, Disk.lead_nil,
      Disk.enter_of_ne hentry.noDot hentry.noDots] at hlength
    simp [Disk.place] at hlength
  · rw [← hrest] at hroot
    have hle := (hroot.prefix_lead hdisk hn).length_le
    rw [hrest] at hle
    rw [Disk.place] at hlength
    omega

/-- Making a folder of the store touches none of its files. -/
theorem Changes.of_housed {touched : List String → Prop} {d d' : Disk} (hdisk : disk.Grounded)
    (hroot : disk.Climbs (disk.start root) root.names) (hkey : checkKey key = .ok ())
    (h : Changes (disk.place root) touched disk d) (hmade : Housed (folderOf root key) d d') :
    Changes (disk.place root) (fun _ => False) d d' := by
  have hstart : d.start (folderOf root key) = disk.start root := by
    rw [folderOf, Disk.start_join (SessionStore.isEntry_project hkey).isName.2,
      Disk.start_congr h.cwd]
  refine ⟨hmade.cwd, fun at_ hf => ?_, fun at_ _ => ?_, fun at_ hs _ => ?_⟩
  · rcases hmade.node at_ with hsame | ⟨-, hfolder, -⟩
    · rw [hsame, hf]
    · exact hfolder
  · exact (hmade.node at_).imp id fun hnew => ⟨hnew.1, hnew.2.1⟩
  · rcases hmade.node at_ with hsame | ⟨hnone, -, way, hway, rfl⟩
    · exact hsame
    · rw [hstart] at hs hnone
      refine absurd hs (not_stored_of_way hdisk hroot hkey hway fun hf => ?_)
      rw [h.folders _ hf] at hnone
      cases hnone

end

end Rehearsal
