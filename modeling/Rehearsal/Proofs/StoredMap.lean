import Mathlib.Logic.Function.Basic
import Rehearsal.Proofs.ReadBack
import Rehearsal.Proofs.StorePlaces

/-! # Both stores are one map

Savings and look-ups, one after the other, on a store of files whose root is empty and on a store in
memory that holds nothing. As long as the file operations succeed, either store answers with the
session that was last put under the key.
-/
namespace Rehearsal

open Disk (Path Housed)
open SessionStore (checkKey folderOf fileOf draftOf putFile getFile)

/-- Something asked of a store of sessions. -/
inductive StoreAct where
  | put (key : Session.Key) (s : SavedSession)
  | get (key : Session.Key)

namespace StoreAct

def key : StoreAct → Session.Key
  | put key _ => key
  | get key => key

/-- Keys are fit for a path, and a session that is put is one a browser can give. -/
def Fit : StoreAct → Prop
  | put key s => checkKey key = .ok () ∧ s.Sound ∧ s.toValue.height ≤ Json.textRoom
  | get key => checkKey key = .ok ()

theorem Fit.checkKey {act : StoreAct} (h : act.Fit) : SessionStore.checkKey act.key = .ok () := by
  cases act with
  | put key s => exact h.1
  | get key => exact h

end StoreAct

namespace SessionStore

/-- What a store answers to the look-ups among the acts. -/
def answers (store : SessionStore) :
    Desk → List StoreAct → List (Except Failure (Option SavedSession))
  | _, [] => []
  | d, .put key s :: acts => answers store (store.put d key s).2.1 acts
  | d, .get key :: acts => store.get d key :: answers store d acts

/-- Every saving succeeds, and a look-up reads its file or finds that there is none. -/
def FilesSucceed (root : Path) : Desk → List StoreAct → Prop
  | _, [] => True
  | d, .put key s :: acts =>
    (putFile root d key s).1 = .ok () ∧ FilesSucceed root (putFile root d key s).2.1 acts
  | d, .get key :: acts =>
    (d.disk.readText (fileOf root key) = .error .missing ∨
      (d.disk.readText (fileOf root key)).toOption.isSome) ∧ FilesSucceed root d acts

instance (root : Path) : (d : Desk) → (acts : List StoreAct) → Decidable (FilesSucceed root d acts)
  | _, [] => isTrue trivial
  | d, .put key s :: acts =>
    have := instDecidableFilesSucceed root (putFile root d key s).2.1 acts
    inferInstanceAs (Decidable (_ ∧ _))
  | d, .get _ :: acts =>
    have := instDecidableFilesSucceed root d acts
    inferInstanceAs (Decidable (_ ∧ _))

end SessionStore

/-- What a map answers, each saving replacing what the map has for its key. -/
def mapAnswers :
    (Session.Key → Option SavedSession) → List StoreAct → List (Except Failure (Option SavedSession))
  | _, [] => []
  | m, .put key s :: acts => mapAnswers (Function.update m key (some s)) acts
  | m, .get key :: acts => .ok (m key) :: mapAnswers m acts

theorem mapAnswers_append (m : Session.Key → Option SavedSession) (past : List StoreAct) :
    ∃ m', ∀ acts, mapAnswers m (past ++ acts) = mapAnswers m past ++ mapAnswers m' acts := by
  induction past generalizing m with
  | nil => exact ⟨m, fun _ => rfl⟩
  | cons act past ih =>
    cases act with
    | put key s => exact ih (Function.update m key (some s))
    | get key =>
      obtain ⟨m', hm'⟩ := ih m
      exact ⟨m', fun acts => congrArg (Except.ok (m key) :: ·) (hm' acts)⟩

/-! ## In memory -/

theorem Desk.lookup_shelve (key other : Session.Key) (s : SavedSession)
    (shelf : List (Session.Key × SavedSession)) :
    (shelve key s shelf).lookup other = if other = key then some s else shelf.lookup other := by
  induction shelf with
  | nil =>
    by_cases h : other = key
    · simp [shelve, h]
    · have hne : (other == key) = false := by simpa using h
      simp [shelve, List.lookup_cons, h, hne]
  | cons entry shelf ih =>
    obtain ⟨k, t⟩ := entry
    by_cases hk : k = key
    · subst hk
      by_cases h : other = k
      · simp [shelve, h]
      · have hne : (other == k) = false := by simpa using h
        simp [shelve, List.lookup_cons, h, hne]
    · rw [shelve, if_neg hk, List.lookup_cons, List.lookup_cons, ih]
      by_cases h : other = k
      · have hkey : other ≠ key := fun heq => hk (h ▸ heq)
        simp [h, hk]
      · have hne : (other == k) = false := by simpa using h
        simp [hne]

theorem Desk.session?_putSession (d : Desk) (key : Session.Key) (s : SavedSession) :
    (d.putSession key s).session? = Function.update d.session? key (some s) := by
  funext other
  rw [Function.update_apply]
  exact lookup_shelve key other s d.sessions

theorem SessionStore.answers_memory (d : Desk) (acts : List StoreAct) :
    memory.answers d acts = mapAnswers d.session? acts := by
  induction acts generalizing d with
  | nil => rfl
  | cons act acts ih =>
    cases act with
    | put key s =>
      have hput := ih (d.putSession key s)
      rw [Desk.session?_putSession] at hput
      exact hput
    | get key => exact congrArg _ (ih d)

/-! ## In files -/

namespace Disk

theorem file_of_readText {disk : Disk} {p : Path} {text : String}
    (h : disk.readText p = .ok text) : ∃ content, disk.node? (disk.place p) = some (.file content) := by
  cases hl : disk.locate p with
  | error fault => simp [readText, readBytes, hl, bind, Except.bind] at h
  | ok found =>
    obtain rfl := locate_eq_ok hl
    cases hn : disk.node? (disk.place p) with
    | none => simp [readText, readBytes, hl, hn, bind, Except.bind] at h
    | some node =>
      cases node with
      | folder => simp [readText, readBytes, hl, hn, bind, Except.bind] at h
      | file content => exact ⟨content, rfl⟩

/-- From one disk to the next folders stay, and places keep their files but for some that are touched. -/
structure Spares (touched : List String → Prop) (disk disk' : Disk) : Prop where
  cwd : disk'.cwd = disk.cwd
  folders : ∀ at_, disk.node? at_ = some .folder → disk'.node? at_ = some .folder
  files : ∀ at_ content, ¬ touched at_ →
    (disk'.node? at_ = some (.file content) ↔ disk.node? at_ = some (.file content))

namespace Spares

variable {touched touched' : List String → Prop} {disk disk' disk'' : Disk}

theorem trans (h : Spares touched disk disk') (h' : Spares touched disk' disk'') :
    Spares touched disk disk'' where
  cwd := h'.cwd.trans h.cwd
  folders at_ hat := h'.folders at_ (h.folders at_ hat)
  files at_ content hat := (h'.files at_ content hat).trans (h.files at_ content hat)

theorem mono (h : Spares touched disk disk') (hle : ∀ at_, touched at_ → touched' at_) :
    Spares touched' disk disk' where
  cwd := h.cwd
  folders := h.folders
  files at_ content hat := h.files at_ content (mt (hle at_) hat)

theorem of_housed {p : Path} (h : Housed p disk disk') : Spares touched disk disk' where
  cwd := h.cwd
  folders at_ hat := by
    rcases h.node at_ with hsame | ⟨-, hfolder, -⟩
    · rw [hsame, hat]
    · exact hfolder
  files at_ content _ := by
    rcases h.node at_ with hsame | ⟨hnone, hfolder, -⟩
    · rw [hsame]
    · simp [hnone, hfolder]

/-- A file is put where no folder stands. -/
theorem put {at_ : List String} (h : disk.node? at_ ≠ some .folder) (content : Bytes) :
    Spares (· = at_) disk (disk.put at_ (.file content)) where
  cwd := rfl
  folders other hother := by
    rwa [node?_put_of_ne (by rintro rfl; exact h hother)]
  files other content' hother := by rw [node?_put_of_ne hother]

theorem remove {at_ : List String} (h : disk.node? at_ ≠ some .folder) :
    Spares (· = at_) disk (disk.remove at_) where
  cwd := rfl
  folders other hother := by
    rwa [node?_remove_of_ne (by rintro rfl; exact h hother)]
  files other content' hother := by rw [node?_remove_of_ne hother]

end Spares

/-- A draft that is written and then moved onto the place of a file is that file from then on. -/
theorem spares_of_moved {made written moved : Disk} {draft file : Path} {content : Bytes}
    (hwritten : made.write draft content = .ok written) (hmoved : written.rename draft file = .ok moved)
    (hne : made.place file ≠ made.place draft) (hslash : file.toList.getLast? ≠ some '/') :
    moved.locate file = .ok (moved.place file, some (.file content)) ∧
      Spares (fun at_ => at_ = made.place draft ∨ at_ = made.place file) made moved := by
  obtain ⟨hfree, hw⟩ := write_eq_ok hwritten
  obtain ⟨content', hdraft, hlocate, hfile, hm⟩ := rename_eq_ok hmoved
  have hplace : ∀ p, written.place p = made.place p := fun p => place_congr (by rw [hw]; rfl) p
  have hafter : ∀ p, moved.place p = made.place p := fun p => place_congr (by rw [hm, hw]; rfl) p
  have hnode : written.node? (made.place draft) = some (.file content) := by
    rw [hw]
    exact node?_put (fun hnil => hfree (by rw [hnil, node?_nil])) made _
  rw [hplace] at hdraft hfile
  obtain rfl : content = content' := by simpa [hnode] using hdraft
  rw [hplace, hplace] at hm
  have hput : Spares (· = made.place draft) made written := hw ▸ .put hfree content
  have hremoved : Spares (· = made.place draft) written (written.remove (made.place draft)) :=
    .remove (by rw [hnode]; simp)
  have hreplaced : Spares (· = made.place file) (written.remove (made.place draft)) moved :=
    hm ▸ .put (by rwa [node?_remove_of_ne hne]) content
  have hrest := (hremoved.mono fun _ => Or.inl).trans (hreplaced.mono fun _ => Or.inr)
  have hthere := locate_later hlocate hslash hrest.cwd hrest.folders
  have hnil : made.place file ≠ [] := fun hnil => hfile (by rw [hnil, node?_nil])
  have hnow : moved.node? (made.place file) = some (.file content) := by
    rw [hm]
    exact node?_put hnil _ _
  rw [hplace, hnow] at hthere
  rw [hafter]
  exact ⟨hthere, (hput.mono fun _ => Or.inl).trans hrest⟩

end Disk

open Disk (Spares)

namespace SessionStore

variable {root : Path} {d : Desk} {key : Session.Key} {s : SavedSession}

def bytesOf (s : SavedSession) : Disk.Bytes := (s.toValue.pretty 0).toUTF8.data.toList

/-- A saving that succeeds makes a folder, writes a draft there, and moves it. -/
theorem putFile_eq_ok (h : (putFile root d key s).1 = .ok ()) :
    checkKey key = .ok () ∧ ∃ made written moved,
      d.disk.makeFolders (folderOf root key) = .ok made ∧
      made.write (draftOf root key (Desk.tag d.serial)) (bytesOf s) = .ok written ∧
      written.rename (draftOf root key (Desk.tag d.serial)) (fileOf root key) = .ok moved ∧
      (putFile root d key s).2.1.disk = moved := by
  cases hkey : checkKey key with
  | error fault => simp only [putFile, hkey, reduceCtorEq] at h
  | ok _ =>
    cases hmade : d.disk.makeFolders (folderOf root key) with
    | error fault => simp only [putFile, hkey, hmade, reduceCtorEq] at h
    | ok made =>
      cases hwritten : made.write (draftOf root key (Desk.tag d.serial)) (bytesOf s) with
      | error fault =>
        rw [bytesOf] at hwritten
        simp only [putFile, hkey, hmade, hwritten, reduceCtorEq] at h
      | ok written =>
        cases hmoved : written.rename (draftOf root key (Desk.tag d.serial)) (fileOf root key) with
        | error fault =>
          rw [bytesOf] at hwritten
          simp only [putFile, hkey, hmade, hwritten, hmoved, reduceCtorEq] at h
        | ok moved =>
          refine ⟨rfl, made, written, moved, rfl, hwritten, hmoved, ?_⟩
          rw [bytesOf] at hwritten
          simp only [putFile, hkey, hmade, hwritten, hmoved]

/-- What a store of files has for a key: the file of a session as it was put, or no file. -/
def Holds (root : Path) (disk : Disk) (key : Session.Key) : Option SavedSession → Prop
  | some s => s.Sound ∧ s.toValue.height ≤ Json.textRoom ∧
      disk.locate (fileOf root key) = .ok (disk.place (fileOf root key), some (.file (bytesOf s)))
  | none => ∀ content, disk.node? (disk.place (fileOf root key)) ≠ some (.file content)

theorem getFile_of_holds {disk : Disk} (hkey : checkKey key = .ok ()) {had : Option SavedSession}
    (h : Holds root disk key had) (hd : d.disk = disk)
    (hread : disk.readText (fileOf root key) = .error .missing ∨
      (disk.readText (fileOf root key)).toOption.isSome) : getFile root d key = .ok had := by
  subst hd
  cases had with
  | some s =>
    obtain ⟨hsound, hheight, hlocate⟩ := h
    have htext : d.disk.readText (fileOf root key) = .ok (s.toValue.pretty 0) :=
      Disk.readText_of_file hlocate
    have hback := s.ofText_of_read hsound hheight (Json.Value.read_pretty s.toValue 0)
    simp only [getFile, hkey, htext, hback, bind, Except.bind]
  | none =>
    cases htext : d.disk.readText (fileOf root key) with
    | error fault =>
      obtain rfl : fault = .missing := by simpa [htext, Except.toOption] using hread
      simp only [getFile, hkey, htext, bind, Except.bind]
    | ok text =>
      obtain ⟨content, hfile⟩ := Disk.file_of_readText htext
      exact absurd hfile (h content)

theorem Holds.spared {touched : List String → Prop} {disk disk' : Disk} {had : Option SavedSession}
    (hkey : checkKey key = .ok ()) (h : Holds root disk key had) (hspares : Spares touched disk disk')
    (hfree : ¬ touched (disk.place (fileOf root key))) : Holds root disk' key had := by
  have hplace : disk'.place (fileOf root key) = disk.place (fileOf root key) :=
    Disk.place_congr hspares.cwd _
  cases had with
  | none =>
    intro content hfile
    rw [hplace, hspares.files _ _ hfree] at hfile
    exact h content hfile
  | some s =>
    obtain ⟨hsound, hheight, hlocate⟩ := h
    refine ⟨hsound, hheight, ?_⟩
    have hfound := Disk.locate_eq_ok hlocate
    simp only [Prod.mk.injEq, true_and] at hfound
    have hlater := Disk.locate_later hlocate (Disk.Path.getLast?_join (isEntry_file hkey).isName _)
      hspares.cwd hspares.folders
    rw [hplace]
    rw [(hspares.files _ _ hfree).2 hfound.symm] at hlater
    exact hlater

/-- A saving that succeeds puts the session into the file of the key, and touches no place but that one
and the draft's. -/
theorem holds_put (hsound : s.Sound) (hheight : s.toValue.height ≤ Json.textRoom)
    (h : (putFile root d key s).1 = .ok ()) :
    Holds root (putFile root d key s).2.1.disk key (some s) ∧
      Spares (fun at_ => at_ = d.disk.place (draftOf root key (Desk.tag d.serial)) ∨
        at_ = d.disk.place (fileOf root key)) d.disk (putFile root d key s).2.1.disk := by
  obtain ⟨hkey, made, written, moved, hmade, hwritten, hmoved, hdisk⟩ := putFile_eq_ok h
  have hhoused := Housed.of_makeFolders hmade
  have hplace : ∀ p, made.place p = d.disk.place p := fun p => Disk.place_congr hhoused.cwd p
  have hne : made.place (fileOf root key) ≠ made.place (draftOf root key (Desk.tag d.serial)) :=
    file_ne_draft hkey hkey d.serial
  obtain ⟨hlocate, hspares⟩ := Disk.spares_of_moved hwritten hmoved hne
    (Disk.Path.getLast?_join (isEntry_file hkey).isName _)
  rw [hdisk]
  refine ⟨⟨hsound, hheight, hlocate⟩, ?_⟩
  rw [hplace, hplace] at hspares
  exact (Spares.of_housed hhoused).trans hspares

/-- The disk has for every key what the map has. -/
def HoldsAll (root : Path) (disk : Disk) (m : Session.Key → Option SavedSession) : Prop :=
  ∀ key, checkKey key = .ok () → Holds root disk key (m key)

theorem HoldsAll.put {m : Session.Key → Option SavedSession} (h : HoldsAll root d.disk m)
    (hsound : s.Sound) (hheight : s.toValue.height ≤ Json.textRoom)
    (hput : (putFile root d key s).1 = .ok ()) :
    HoldsAll root (putFile root d key s).2.1.disk (Function.update m key (some s)) := by
  intro other hother
  obtain ⟨hnow, hspares⟩ := holds_put hsound hheight hput
  obtain ⟨hkey, -⟩ := putFile_eq_ok hput
  by_cases heq : other = key
  · subst heq
    rwa [Function.update_self]
  · rw [Function.update_of_ne heq]
    refine (h other hother).spared hother hspares ?_
    rintro (hdraft | hfile)
    · exact file_ne_draft hother hkey d.serial hdraft
    · exact heq (key_of_place_file hother hkey hfile)

theorem answers_files {m : Session.Key → Option SavedSession} {acts : List StoreAct}
    (hfit : ∀ act ∈ acts, act.Fit) (hsucceed : FilesSucceed root d acts)
    (h : HoldsAll root d.disk m) : (files root).answers d acts = mapAnswers m acts := by
  induction acts generalizing d m with
  | nil => rfl
  | cons act acts ih =>
    have hrest : ∀ act ∈ acts, act.Fit := fun act hact => hfit act (by simp [hact])
    have hact := hfit act (by simp)
    cases act with
    | put key s =>
      obtain ⟨-, hsound, hheight⟩ := hact
      have hnext := h.put hsound hheight hsucceed.1
      exact ih hrest hsucceed.2 hnext
    | get key =>
      have hget := getFile_of_holds hact (h key hact) rfl hsucceed.1
      have hothers := ih hrest hsucceed.2 h
      rw [answers, mapAnswers, hothers]
      exact congrArg (· :: _) hget

/-- Nothing stands below the root. -/
def Vacant (root : Path) (disk : Disk) : Prop :=
  ∀ name below, disk.node? (disk.place root ++ name :: below) = none

theorem holdsAll_of_vacant {disk : Disk} (h : Vacant root disk) : HoldsAll root disk fun _ => none := by
  intro key hkey content hfile
  rw [place_file hkey, h] at hfile
  cases hfile

/-- A store of files and a store in memory answer alike, namely as a map does. What is put under one key
never shows under another. -/
theorem stores_agree {root : Path} {d m : Desk} {acts : List StoreAct} (hroot : Vacant root d.disk)
    (hempty : m.sessions = []) (hfit : ∀ act ∈ acts, act.Fit) (hsucceed : FilesSucceed root d acts) :
    (files root).answers d acts = memory.answers m acts ∧
      (files root).answers d acts = mapAnswers (fun _ => none) acts ∧
      ∀ (past : List StoreAct) (key other : Session.Key) (s : SavedSession), other ≠ key →
        acts = past ++ [.get other, .put key s, .get other] → ∃ answer, (files root).answers d acts =
          mapAnswers (fun _ => none) past ++ [answer, answer] := by
  have hnone : m.session? = fun _ => none := by
    funext key
    rw [Desk.session?, hempty]
    rfl
  have hfiles := answers_files hfit hsucceed (holdsAll_of_vacant hroot)
  have hmemory := answers_memory m acts
  rw [hnone] at hmemory
  refine ⟨hfiles.trans hmemory.symm, hfiles, fun past key other s hne hacts => ?_⟩
  obtain ⟨m', hm'⟩ := mapAnswers_append (fun _ => none) past
  refine ⟨.ok (m' other), ?_⟩
  rw [hfiles, hacts, hm']
  simp only [mapAnswers, Function.update_of_ne hne]

/-- Two keys that share their folder, the name of one going on where that of the other ends. -/
theorem stores_agree_neighbours :
    let near : Session.Key := ⟨"a", "b"⟩
    let far : Session.Key := ⟨"a", "b.json"⟩
    let first : SavedSession := ⟨[.object [("c", .null)]], []⟩
    let second : SavedSession := ⟨[], [⟨"o", [], [⟨"n", "v"⟩]⟩]⟩
    let acts : List StoreAct := [.put near first, .get far, .put far second, .get near]
    Vacant "s" (Desk.ofDisk ⟨[], []⟩).disk ∧ (Desk.ofDisk ⟨[], []⟩).sessions = [] ∧
      (∀ act ∈ acts, act.Fit) ∧ FilesSucceed "s" (.ofDisk ⟨[], []⟩) acts ∧
      (files "s").answers (.ofDisk ⟨[], []⟩) acts = memory.answers (.ofDisk ⟨[], []⟩) acts ∧
      memory.answers (.ofDisk ⟨[], []⟩) acts = [.ok none, .ok (some first)] := by
  intro near far first second acts
  have hroot : Vacant "s" (Desk.ofDisk ⟨[], []⟩).disk := by
    intro name below
    simp [Desk.ofDisk, Disk.node?]
  have hfirst : first.Sound ∧ first.toValue.height ≤ Json.textRoom := by
    refine ⟨fun c hc => ?_, by decide⟩
    obtain rfl := List.mem_singleton.1 hc
    exact .object (by simpa using .null) (by simp)
  have hsecond : second.Sound ∧ second.toValue.height ≤ Json.textRoom :=
    ⟨by simp [second, SavedSession.Sound], by decide⟩
  have hnear : checkKey near = .ok () := by decide
  have hfar : checkKey far = .ok () := by decide
  have hfit : ∀ act ∈ acts, act.Fit := by
    intro act hact
    simp only [acts, List.mem_cons, List.not_mem_nil, or_false] at hact
    rcases hact with rfl | rfl | rfl | rfl
    exacts [⟨hnear, hfirst⟩, hfar, ⟨hfar, hsecond⟩, hnear]
  have hsucceed : FilesSucceed "s" (.ofDisk ⟨[], []⟩) acts := by decide +kernel
  have hagree := stores_agree (m := .ofDisk ⟨[], []⟩) hroot rfl hfit hsucceed
  exact ⟨hroot, rfl, hfit, hsucceed, hagree.1, rfl⟩

end SessionStore

end Rehearsal
