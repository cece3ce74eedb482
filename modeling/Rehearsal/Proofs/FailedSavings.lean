import Rehearsal.Proofs.Interleaving
import Rehearsal.Proofs.StoredMap

/-! # Savings that fail

A saving fails where it cannot make its folder, write its draft or move it. Up to the draft nothing but
folders is new. A draft that was written can be moved unless a folder stands in the place of the file;
then the draft is left behind.
-/
namespace Rehearsal

namespace Disk

/-! ## Names in one folder -/

/-- A single name comes after the same in whatever it is joined to. -/
theorem Path.exists_before (p : Path) :
    ∃ before : Path, ∀ name : String, '/' ∉ name.toList → p.join name = before ++ name := by
  by_cases hp : (p.isEmpty || p.toList.getLast? == some '/') = true
  · exact ⟨p, fun name h => by simp [join, not_isAbsolute h, hp]⟩
  · exact ⟨p ++ "/", fun name h => by simp [join, not_isAbsolute h, hp]⟩

/-- Where a name can be followed, so can one that is no longer. -/
theorem follow_beside {d : Disk} {here names : List String} {name other : String}
    {found : List String × Option Node} (h : d.follow here (names ++ [name]) = .ok found)
    (hshort : other.utf8ByteSize ≤ name.utf8ByteSize) :
    ∃ found', d.follow here (names ++ [other]) = .ok found' := by
  induction names generalizing here with
  | nil =>
    simp only [List.nil_append, follow_cons] at h ⊢
    cases hname : d.obstacle here name with
    | some fault => simp [hname] at h
    | none =>
      have hfolder := isFolderAt_of_obstacle hname
      have hother : d.obstacle here other = none := by
        simp only [obstacle, hfolder, if_true] at hname ⊢
        split at hname
        · cases hname
        · rw [if_neg (by omega)]
      rw [hother]
      exact ⟨_, rfl⟩
  | cons first rest ih =>
    simp only [List.cons_append, follow_cons] at h ⊢
    cases hfirst : d.obstacle here first with
    | some fault => simp [hfirst] at h
    | none =>
      simp only [hfirst] at h
      exact ih h

/-- A name that is as good in a path as another, if it stands in the other's place: it is no longer and
has no zero that the other has not. -/
structure Path.FitsFor (other name : String) : Prop where
  isEntry : IsEntry other
  apart : other ≠ name
  short : other.utf8ByteSize ≤ name.utf8ByteSize
  zeros : ∀ c ∈ other.toList, c.toNat = 0 → c ∈ name.toList

theorem locate_beside {d : Disk} {p : Path} {name other : String} {found : List String × Option Node}
    (hname : Path.IsName name) (fits : Path.FitsFor other name)
    (h : d.locate (p.join name) = .ok found) :
    d.locate (p.join other) = .ok (d.place (p.join other), d.node? (d.place (p.join other))) := by
  have hother := fits.isEntry.isName
  obtain ⟨hp, hf⟩ := follow_of_locate h
  obtain ⟨before, hbefore⟩ := Path.exists_before p
  have hfollowable : Followable (p.join other) := by
    have hnuls := hp.noNul
    have hlength := hp.short
    rw [hbefore name hname.2, String.toList_append, List.any_append, Bool.or_eq_false_iff] at hnuls
    rw [hbefore name hname.2, String.utf8ByteSize_append] at hlength
    refine ⟨?_, ?_, ?_⟩
    · have hnul : other.toList.any (·.toNat = 0) = false := by
        rw [List.any_eq_false]
        intro c hc hzero
        have hin := fits.zeros c hc (by simpa using hzero)
        exact List.any_eq_false.mp hnuls.2 c hin hzero
      rw [hbefore other hother.2, String.toList_append, List.any_append, hnuls.1, hnul]
      rfl
    · rw [hbefore other hother.2]
      intro hempty
      have hchars := congrArg String.toList hempty
      rw [String.toList_append, String.toList_empty, List.append_eq_nil_iff] at hchars
      exact hother.1 (String.toList_eq_nil_iff.mp hchars.2)
    · have hshort := fits.short
      rw [hbefore other hother.2, String.utf8ByteSize_append]
      omega
  have hstart : d.start (p.join other) = d.start (p.join name) := by
    rw [start_join hname.2, start_join hother.2]
  rw [Path.names_join hname.2 hname.1, ← hstart] at hf
  obtain ⟨found', hfound⟩ := follow_beside hf fits.short
  rw [← Path.names_join hother.2 hother.1] at hfound
  have hlocate : ∃ found, d.locate (p.join other) = .ok found := by
    rw [locate_eq hfollowable, hfound]
    simp only [bind, Except.bind, if_neg (Path.getLast?_join hother p)]
    split
    · exact ⟨_, rfl⟩
    · exact ⟨_, rfl⟩
  obtain ⟨found, hlocate⟩ := hlocate
  rw [hlocate, locate_eq_ok hlocate]

/-! ## Files that stay -/

/-- At and below a place there are the same files with the same contents. -/
def SameFiles (base : List String) (d d' : Disk) : Prop :=
  ∀ at_ content, base <+: at_ →
    (d'.node? at_ = some (.file content) ↔ d.node? at_ = some (.file content))

theorem SameFiles.refl (base : List String) (d : Disk) : SameFiles base d d := fun _ _ _ => Iff.rfl

theorem SameFiles.of_housed {p : Path} {d d' : Disk} (h : Housed p d d') (base : List String) :
    SameFiles base d d' := by
  intro at_ content _
  rcases h.node at_ with hsame | ⟨hnone, hfolder, -⟩
  · rw [hsame]
  · rw [hnone, hfolder]
    simp

/-- There are the same files, and one more. -/
def OneMore (at_ : List String) (content : Bytes) (d d' : Disk) : Prop :=
  ∀ other content', d'.node? other = some (.file content') ↔
    d.node? other = some (.file content') ∨ other = at_ ∧ content' = content

theorem OneMore.not_sameFiles {at_ base : List String} {content : Bytes} {d d' : Disk}
    (h : OneMore at_ content d d') (hnone : d.node? at_ = none) (hbase : base <+: at_) :
    ¬ SameFiles base d d' := by
  intro same
  have hnew := (same at_ content hbase).mp ((h at_ content).mpr (.inr ⟨rfl, rfl⟩))
  rw [hnone] at hnew
  cases hnew

theorem write_oneMore {d d' : Disk} {p : Path} {content : Bytes} (h : d.write p content = .ok d')
    (hnone : ∀ old, d.node? (d.place p) ≠ some (.file old)) : OneMore (d.place p) content d d' := by
  obtain ⟨hfree, rfl⟩ := write_eq_ok h
  have hnil : d.place p ≠ [] := fun hnil => hfree (by rw [hnil, node?_nil])
  intro other content'
  by_cases hother : other = d.place p
  · subst hother
    rw [node?_put hnil]
    simp [hnone, eq_comm]
  · rw [node?_put_of_ne hother]
    simp [hother]

/-- What was written can be moved in its folder to any name that is no longer, unless a folder has it. -/
theorem rename_of_write {d d' : Disk} {p : Path} {name other : String} {content : Bytes}
    (hname : Path.IsEntry name) (fits : Path.FitsFor other name)
    (h : d.write (p.join name) content = .ok d') :
    if d.node? (d.place (p.join other)) = some .folder then
      d'.rename (p.join name) (p.join other) = .error .isFolder
    else ∃ d'', d'.rename (p.join name) (p.join other) = .ok d'' := by
  have hlocate : d.locate (p.join name) =
      .ok (d.place (p.join name), d.node? (d.place (p.join name))) := by
    unfold write at h
    cases hl : d.locate (p.join name) with
    | error fault => rw [hl] at h; cases h
    | ok found => rw [locate_eq_ok hl]
  obtain ⟨hfree, rfl⟩ := write_eq_ok h
  have hplace : ∀ q, (d.put (d.place (p.join name)) (.file content)).place q = d.place q :=
    fun q => place_congr rfl q
  have hput : Spares (· = d.place (p.join name)) d (d.put (d.place (p.join name)) (.file content)) :=
    .put hfree content
  have hsource := locate_later hlocate (Path.getLast?_join hname.isName p) hput.cwd hput.folders
  have htarget := locate_beside hname.isName fits hsource
  have hapart : d.place (p.join other) ≠ d.place (p.join name) := by
    rw [place_join hname, place_join fits.isEntry]
    simpa using fits.apart
  have hnil : d.place (p.join name) ≠ [] := by
    rw [place_join hname]
    simp
  rw [node?_put hnil] at hsource
  rw [hplace, node?_put_of_ne hapart] at htarget
  unfold rename
  rw [hsource, htarget]
  split
  · rename_i hfolder
    rw [hfolder]
    rfl
  · rename_i hnot
    cases hnode : d.node? (d.place (p.join other)) with
    | none => exact ⟨_, rfl⟩
    | some node =>
      cases node with
      | folder => exact absurd hnode hnot
      | file old => exact ⟨_, rfl⟩

end Disk

open Disk (Path Housed SameFiles OneMore)

namespace SessionStore

variable {root : Path} {d : Desk} {key : Session.Key} {s : SavedSession}

theorem fitsFor_file (h : checkKey key = .ok ()) (n : Nat) :
    Path.FitsFor (key.state ++ ".json") ("." ++ key.state ++ "." ++ Desk.tag n ++ ".tmp") where
  isEntry := isEntry_file h
  apart hname := by
    have hlast := congrArg (fun name => name.toList.getLast?) hname
    simp only [String.toList_append] at hlast
    rw [List.getLast?_append_of_ne_nil _ (by decide),
      List.getLast?_append_of_ne_nil _ (by decide)] at hlast
    exact absurd hlast (by decide)
  short := by
    have hjson : ".json".utf8ByteSize = 5 := by decide
    have htmp : ".tmp".utf8ByteSize = 4 := by decide
    have hdot : ".".utf8ByteSize = 1 := by decide
    simp only [String.utf8ByteSize_append, hjson, htmp, hdot]
    omega
  zeros c hc hzero := by
    rw [String.toList_append, List.mem_append] at hc
    rcases hc with hstate | hjson
    · simp [hstate]
    · have hletters : ".json".toList = ['.', 'j', 's', 'o', 'n'] := by decide
      simp only [hletters, List.mem_cons, List.not_mem_nil, or_false] at hjson
      rcases hjson with rfl | rfl | rfl | rfl | rfl <;> simp at hzero

/-- The draft of a saving can be written, with this disk before and that one after. -/
structure Drafts (root : Path) (d : Desk) (key : Session.Key) (s : SavedSession) (made written : Disk) :
    Prop where
  fit : checkKey key = .ok ()
  housed : d.disk.makeFolders (folderOf root key) = .ok made
  wrote : made.write (draftOf root key (Desk.tag d.serial)) (bytesOf s) = .ok written

/-- A saving that fails has made folders at most, or leaves its draft before a folder. -/
theorem putFile_eq_error {e : Failure} (h : (putFile root d key s).1 = .error e) :
    (Housed (folderOf root key) d.disk (putFile root d key s).2.1.disk ∧
      ∀ made written, ¬ Drafts root d key s made written) ∨
    ∃ made, Drafts root d key s made (putFile root d key s).2.1.disk ∧
      made.node? (made.place (fileOf root key)) = some .folder ∧
      e = fault (fileOf root key) Disk.Fault.isFolder.message := by
  unfold putFile at h ⊢
  rw [← bytesOf] at h ⊢
  cases hkey : checkKey key with
  | error fault => exact .inl ⟨.refl _ _, fun _ _ drafts => by simp [drafts.fit] at hkey⟩
  | ok _ =>
    simp only [hkey] at h ⊢
    cases hmade : d.disk.makeFolders (folderOf root key) with
    | error fault =>
      simp only
      exact .inl ⟨.of_leaveFolders _ _, fun _ _ drafts => by simp [drafts.housed] at hmade⟩
    | ok made =>
      simp only [hmade] at h ⊢
      cases hwritten : made.write (draftOf root key (Desk.tag d.serial)) (bytesOf s) with
      | error fault =>
        simp only
        refine .inl ⟨.of_makeFolders hmade, fun made' written drafts => ?_⟩
        obtain rfl : made = made' := by simpa [hmade] using drafts.housed
        simp [drafts.wrote] at hwritten
      | ok written =>
        have hentry := isEntry_draft hkey (slash_not_mem_tag d.serial)
        have hrename := Disk.rename_of_write hentry (fitsFor_file hkey d.serial) hwritten
        simp only [hwritten] at h ⊢
        split at hrename
        · rename_i hfolder
          simp only [draftOf, fileOf, hrename, Except.error.injEq] at h ⊢
          exact .inr ⟨made, ⟨hkey, hmade, hwritten⟩, hfolder, h.symm⟩
        · obtain ⟨moved, hmoved⟩ := hrename
          simp only [draftOf, fileOf, hmoved, reduceCtorEq] at h

/-- A folder stands in the place of the file, and the draft can be written all the same. -/
def Blocked (root : Path) (d : Desk) (key : Session.Key) (s : SavedSession) : Prop :=
  d.disk.node? (d.disk.place (fileOf root key)) = some .folder ∧
    ∃ made written, Drafts root d key s made written

section

variable (hdisk : d.disk.Grounded) (hroot : d.disk.Climbs (d.disk.start root) root.names)

include hdisk hroot

/-- Making the folder changes nothing where files of the store stand. -/
theorem node?_of_housed {made : Disk} (hkey : checkKey key = .ok ())
    (hmade : Housed (folderOf root key) d.disk made) {at_ : List String}
    (hstored : Stored (d.disk.place root) at_) : made.node? at_ = d.disk.node? at_ :=
  (Changes.of_housed hdisk hroot hkey (.refl _ (fun _ => False) _) hmade).inside _ hstored id

/-- A failed saving changes no file, unless it is blocked. -/
theorem sameFiles_of_error {e : Failure} (h : (putFile root d key s).1 = .error e)
    (free : ¬ Blocked root d key s) : SameFiles [] d.disk (putFile root d key s).2.1.disk := by
  rcases putFile_eq_error h with ⟨hhoused, -⟩ | ⟨made, drafts, hfolder, -⟩
  · exact .of_housed hhoused []
  · have hhoused := Housed.of_makeFolders drafts.housed
    rw [Disk.place_congr hhoused.cwd,
      node?_of_housed hdisk hroot drafts.fit hhoused (stored_file drafts.fit d.disk root)] at hfolder
    exact absurd ⟨hfolder, made, _, drafts⟩ free

/-- If it is, its draft is new. -/
theorem oneMore_of_blocked {e : Failure} (h : (putFile root d key s).1 = .error e)
    (fresh : d.disk.node? (d.disk.place (draftOf root key (Desk.tag d.serial))) = none)
    (blocked : Blocked root d key s) :
    e = fault (fileOf root key) Disk.Fault.isFolder.message ∧
      OneMore (d.disk.place (draftOf root key (Desk.tag d.serial))) (bytesOf s) d.disk
        (putFile root d key s).2.1.disk := by
  obtain ⟨-, made', written', drafts'⟩ := blocked
  rcases putFile_eq_error h with ⟨-, none⟩ | ⟨made, drafts, -, rfl⟩
  · exact absurd drafts' (none made' written')
  · have hhoused := Housed.of_makeFolders drafts.housed
    have hdraft := node?_of_housed hdisk hroot drafts.fit hhoused
      ⟨_, _, place_draft drafts.fit d.disk root d.serial⟩
    have hone := Disk.write_oneMore drafts.wrote
    rw [Disk.place_congr hhoused.cwd, hdraft, fresh] at hone
    refine ⟨rfl, fun other content => ?_⟩
    rw [hone nofun, SameFiles.of_housed hhoused [] other content List.nil_prefix]

/-- After a saving, its session is read back, and the other keys are looked up as before. Only where a
name is too long and nothing was there, this shows once the folder is there. -/
theorem getFile_of_put (h : (putFile root d key s).1 = .ok ()) :
    getFile root (putFile root d key s).2.1 key = Saving.readBack root ⟨key, s, d.serial⟩ ∧
      ∀ other, other ≠ key →
        getFile root (putFile root d key s).2.1 other = getFile root d other ∨
          getFile root d other = .ok none ∧
            getFile root (putFile root d key s).2.1 other =
              .error (fault (fileOf root other) Disk.Fault.nameTooLong.message) ∧
            ∃ name ∈ (fileOf root other).names, Disk.nameLimit < name.utf8ByteSize := by
  obtain ⟨acts, t, -, hrun, hafter, hacts⟩ := @Traffic.runs_putFile Unit _ root
    (fun _ => ⟨key, s, d.serial⟩) (.start Unit d.disk) () d rfl rfl rfl
  obtain rfl := hacts.mp h
  have hkept := (Traffic.Kept.start root _ d.disk).run hdisk hroot
    (Function.injective_of_subsingleton _) hrun
  have hlook : ∀ k, getFile root (putFile root d key s).2.1 k = getFile root (Desk.ofDisk t.disk) k := by
    intro k
    show getFile root (Desk.ofDisk (putFile root d key s).2.1.disk) k = _
    rw [hafter]
  have hown : getFile root (Desk.ofDisk t.disk) key = Saving.readBack root ⟨key, s, d.serial⟩ := by
    obtain ⟨-, hfit, hlocate⟩ := hkept.moved key () (by simp [latest])
    have hanswer := @Traffic.getFile_of_moved Unit root (fun _ => ⟨key, s, d.serial⟩) () _ _ hfit hlocate
    exact hanswer
  refine ⟨(hlook key).trans hown, fun other hne => ?_⟩
  rw [hlook other]
  cases hother : checkKey other with
  | error fault => exact .inl (by simp only [getFile, hother, bind, Except.bind])
  | ok _ =>
    have hlast : latest (fun _ : Unit => (⟨key, s, d.serial⟩ : Saving)) other
        [.makes (), .writes () (Saving.mk key s d.serial).bytes.length, .moves ()] = none := by
      simp [latest, Ne.symm hne]
    rcases hkept.readText_untouched hdisk hroot hother hlast with hsame | ⟨hmissing, hlong, hname⟩
    · exact .inl (Traffic.getFile_congr hsame)
    · exact .inr ⟨Traffic.getFile_of_missing hother hmissing,
        Traffic.getFile_of_nameTooLong hother hlong, hname⟩

/-- A saving that fails leaves every file below the root as it was, unless a folder stands in the place
of its file: then it leaves its draft there. One that succeeds shows under its own key alone. -/
theorem put_traceless_iff
    (fresh : d.disk.node? (d.disk.place (draftOf root key (Desk.tag d.serial))) = none) :
    ((putFile root d key s).1 = .ok () →
      getFile root (putFile root d key s).2.1 key = Saving.readBack root ⟨key, s, d.serial⟩ ∧
        (SavedSession.ofText (s.toValue.pretty 0) = .ok s →
          getFile root (putFile root d key s).2.1 key = .ok (some s)) ∧
        ∀ other, other ≠ key →
          getFile root (putFile root d key s).2.1 other = getFile root d other ∨
            getFile root d other = .ok none ∧
              getFile root (putFile root d key s).2.1 other =
                .error (fault (fileOf root other) Disk.Fault.nameTooLong.message) ∧
              ∃ name ∈ (fileOf root other).names, Disk.nameLimit < name.utf8ByteSize) ∧
    ∀ e, (putFile root d key s).1 = .error e →
      (SameFiles (d.disk.place root) d.disk (putFile root d key s).2.1.disk ↔ ¬ Blocked root d key s) ∧
        (¬ Blocked root d key s → SameFiles [] d.disk (putFile root d key s).2.1.disk) ∧
        (Blocked root d key s → e = fault (fileOf root key) Disk.Fault.isFolder.message ∧
          OneMore (d.disk.place (draftOf root key (Desk.tag d.serial))) (bytesOf s) d.disk
            (putFile root d key s).2.1.disk) := by
  refine ⟨fun h => ?_, fun e h => ⟨⟨fun same blocked => ?_, fun free at_ content _ => ?_⟩,
    sameFiles_of_error hdisk hroot h, oneMore_of_blocked hdisk hroot h fresh⟩⟩
  · obtain ⟨hown, hothers⟩ := getFile_of_put hdisk hroot h
    refine ⟨hown, fun hback => hown.trans ?_, hothers⟩
    exact Saving.readBack_of_ok (s := ⟨key, s, d.serial⟩) hback root
  · have hbelow : d.disk.place root <+: d.disk.place (draftOf root key (Desk.tag d.serial)) := by
      obtain ⟨-, _, _, drafts⟩ := blocked
      rw [place_draft drafts.fit]
      exact List.prefix_append ..
    exact (oneMore_of_blocked hdisk hroot h fresh blocked).2.not_sameFiles fresh hbelow same
  · exact sameFiles_of_error hdisk hroot h free at_ content List.nil_prefix

end

/-- The first session of a store, with a look for another key. -/
theorem put_traceless_iff_first :
    let after := putFile "a" (.ofDisk ⟨[], []⟩) ⟨"p", "s"⟩ ⟨[.bool true], []⟩
    after.1 = .ok () ∧ getFile "a" after.2.1 ⟨"p", "s"⟩ = .ok (some ⟨[.bool true], []⟩) ∧
      getFile "a" after.2.1 ⟨"p", "t"⟩ = .ok none := by
  have hput : (putFile "a" (.ofDisk ⟨[], []⟩) ⟨"p", "s"⟩ ⟨[.bool true], []⟩).1 = .ok () := by
    decide +kernel
  have hback : SavedSession.ofText ((SavedSession.mk [.bool true] []).toValue.pretty 0) =
      .ok ⟨[.bool true], []⟩ := by rfl
  have hnone : getFile "a" (.ofDisk ⟨[], []⟩) ⟨"p", "t"⟩ = .ok none :=
    Traffic.getFile_of_missing (by decide +kernel) (by decide +kernel)
  have hshort : ((fileOf "a" ⟨"p", "t"⟩).names.all fun name =>
      name.utf8ByteSize ≤ Disk.nameLimit) = true := by decide +kernel
  have hclimbs : Disk.Climbs ⟨[], []⟩ (Disk.start ⟨[], []⟩ "a") (Path.names "a") :=
    Disk.climbs_of_not_mem (by decide) _ _
  obtain ⟨-, hown, hothers⟩ := (@put_traceless_iff "a" (.ofDisk ⟨[], []⟩) ⟨"p", "s"⟩ ⟨[.bool true], []⟩
    (Disk.grounded_of_empty []) hclimbs (by decide +kernel)).1 hput
  refine ⟨hput, hown hback, ?_⟩
  rcases hothers ⟨"p", "t"⟩ (by decide) with hsame | ⟨-, -, name, hname, hlong⟩
  · exact hsame.trans hnone
  · have hle := List.all_eq_true.mp hshort name hname
    simp only [decide_eq_true_eq] at hle
    omega

/-- A folder in the place of the file makes the saving fail after its draft is written. -/
theorem not_traceless :
    let d := Desk.ofDisk
      ⟨[], [(["a"], .folder), (["a", "p"], .folder), (["a", "p", "s.json"], .folder)]⟩
    ∃ e, (putFile "a" d ⟨"p", "s"⟩ .empty).1 = .error e ∧
      ¬ SameFiles (d.disk.place "a") d.disk (putFile "a" d ⟨"p", "s"⟩ .empty).2.1.disk := by
  intro d
  have hfails : (putFile "a" d ⟨"p", "s"⟩ .empty).1 =
      .error (.sessionStore "a/p/s.json: Is a directory (os error 21)") := by decide +kernel
  have hnone : d.disk.node? ["a", "p", "." ++ "s" ++ "." ++ Desk.tag 0 ++ ".tmp"] = none := by decide +kernel
  have hfile : (putFile "a" d ⟨"p", "s"⟩ .empty).2.1.disk.node?
      ["a", "p", "." ++ "s" ++ "." ++ Desk.tag 0 ++ ".tmp"] = some (.file (bytesOf .empty)) := by
    decide +kernel
  refine ⟨_, hfails, fun same => ?_⟩
  have hplace : d.disk.place "a" <+: ["a", "p", "." ++ "s" ++ "." ++ Desk.tag 0 ++ ".tmp"] := by
    decide +kernel
  rw [(same _ _ hplace).mp hfile] at hnone
  cases hnone

end SessionStore

end Rehearsal
