import Mathlib.Logic.Function.Basic
import Rehearsal.Proofs.StorePlaces

/-! # Savings side by side

Savings and looks that share one store on disk, with their file operations in any order. A saving makes
its folder, writes a draft piece by piece and moves it onto the file of its key; it may stop anywhere.
Whoever looks is told all of what was moved there last, never a part of it nor what another key holds.
-/
namespace Rehearsal

open Disk (Path lead)
open SessionStore (checkKey folderOf fileOf draftOf getFile)

/-- A session on its way to the store, with the number that names its draft. -/
structure Saving where
  key : Session.Key
  session : SavedSession
  serial : Nat

namespace Saving

def document (s : Saving) : String := s.session.toValue.pretty 0

def bytes (s : Saving) : Disk.Bytes := s.document.toUTF8.data.toList

def draft (root : Path) (s : Saving) : Path := draftOf root s.key (Desk.tag s.serial)

/-- What is told to whoever looks when the whole document is there. -/
def readBack (root : Path) (s : Saving) : Except Failure (Option SavedSession) :=
  ((SavedSession.ofText s.document).map some).mapError (SessionStore.fault (fileOf root s.key))

theorem readBack_of_ok {s : Saving} {session : SavedSession}
    (h : SavedSession.ofText s.document = .ok session) (root : Path) :
    s.readBack root = .ok (some session) := by
  simp only [readBack, h, Except.map, Except.mapError]

theorem ok_of_readBack {s : Saving} {session : SavedSession} {root : Path}
    (h : s.readBack root = .ok (some session)) : SavedSession.ofText s.document = .ok session := by
  cases hback : SavedSession.ofText s.document with
  | error reason => simp [readBack, hback, Except.map, Except.mapError] at h
  | ok other => simpa [readBack, hback, Except.map, Except.mapError] using h

end Saving

/-- How far a saving has come: nothing is done, its folder is there, the start of its document is in its
draft, or the draft has taken its place. -/
inductive Progress where
  | waiting
  | housed
  | drafted (length : Nat)
  | moved
deriving DecidableEq

/-- The draft may be written up to a length. -/
def Progress.Admits : Progress → Nat → Prop
  | .housed, _ => True
  | .drafted done, length => done ≤ length
  | _, _ => False

/-- The disk, and the savings that work on it side by side. -/
structure Traffic (ι : Type) where
  disk : Disk
  progress : ι → Progress

/-- A file operation of one saving, or a look at the file of a key with what is told. -/
inductive FileAct (ι : Type) where
  | makes (i : ι)
  | writes (i : ι) (length : Nat)
  | moves (i : ι)
  | looks (key : Session.Key) (answer : Except Failure (Option SavedSession))

/-- The saving that took the place of a key last, if one did. -/
def latest {ι : Type} (savings : ι → Saving) (key : Session.Key) : List (FileAct ι) → Option ι :=
  List.foldl (fun last act =>
    match act with
    | .moves i => if (savings i).key = key then some i else last
    | _ => last) none

namespace Traffic

variable {ι : Type} [DecidableEq ι]

def start (ι : Type) (disk : Disk) : Traffic ι := ⟨disk, fun _ => .waiting⟩

/-- The saving is further on, and has left the disk like this. -/
def advance (t : Traffic ι) (i : ι) (now : Progress) (disk : Disk) : Traffic ι :=
  ⟨disk, Function.update t.progress i now⟩

@[simp] theorem advance_disk (t : Traffic ι) (i : ι) (now : Progress) (disk : Disk) :
    (t.advance i now disk).disk = disk := rfl

@[simp] theorem advance_progress (t : Traffic ι) (i : ι) (now : Progress) (disk : Disk) :
    (t.advance i now disk).progress i = now :=
  Function.update_self ..

theorem advance_progress_of_ne {i j : ι} (h : j ≠ i) (t : Traffic ι) (now : Progress) (disk : Disk) :
    (t.advance i now disk).progress j = t.progress j :=
  Function.update_of_ne h ..

/-- One act of those that share the store. An operation that fails is no act, and its saving stops there,
except that folders may be left where not all that are needed could be made. -/
inductive Does (root : Path) (savings : ι → Saving) : Traffic ι → FileAct ι → Traffic ι → Prop
  | makes {t : Traffic ι} {i : ι} {disk : Disk} (fit : checkKey (savings i).key = .ok ())
    (now : t.progress i = .waiting)
    (made : t.disk.makeFolders (folderOf root (savings i).key) = .ok disk) :
    Does root savings t (.makes i) (t.advance i .housed disk)
  | leaves {t : Traffic ι} {i : ι} {fault : Disk.Fault} (fit : checkKey (savings i).key = .ok ())
    (now : t.progress i = .waiting)
    (made : t.disk.makeFolders (folderOf root (savings i).key) = .error fault) :
    Does root savings t (.makes i)
      (t.advance i .waiting (t.disk.leaveFolders (folderOf root (savings i).key)))
  | writes {t : Traffic ι} {i : ι} {length : Nat} {disk : Disk}
    (now : (t.progress i).Admits length)
    (written : t.disk.write ((savings i).draft root) ((savings i).bytes.take length) = .ok disk) :
    Does root savings t (.writes i length) (t.advance i (.drafted length) disk)
  | moves {t : Traffic ι} {i : ι} {disk : Disk}
    (now : t.progress i = .drafted (savings i).bytes.length)
    (renamed : t.disk.rename ((savings i).draft root) (fileOf root (savings i).key) = .ok disk) :
    Does root savings t (.moves i) (t.advance i .moved disk)
  | looks {t : Traffic ι} {key : Session.Key} :
    Does root savings t (.looks key (getFile root (Desk.ofDisk t.disk) key)) t

/-- Acts one after the other. -/
inductive Runs (root : Path) (savings : ι → Saving) : Traffic ι → List (FileAct ι) → Traffic ι → Prop
  | nil (t : Traffic ι) : Runs root savings t [] t
  | cons {t t' t'' : Traffic ι} {act : FileAct ι} {acts : List (FileAct ι)}
    (first : Does root savings t act t') (rest : Runs root savings t' acts t'') :
    Runs root savings t (act :: acts) t''

/-- A saving that nobody interrupts: its acts one after the other, up to the first that fails. -/
theorem runs_putFile {root : Path} {savings : ι → Saving} {t : Traffic ι} {i : ι} {d : Desk}
    (hi : (savings i).serial = d.serial) (hdisk : t.disk = d.disk) (hnow : t.progress i = .waiting) :
    ∃ acts t', acts <+: [.makes i, .writes i (savings i).bytes.length, .moves i] ∧
      Runs root savings t acts t' ∧
      t'.disk = (SessionStore.putFile root d (savings i).key (savings i).session).2.1.disk ∧
      ((SessionStore.putFile root d (savings i).key (savings i).session).1 = .ok () ↔
        acts = [.makes i, .writes i (savings i).bytes.length, .moves i]) := by
  have hdraft : draftOf root (savings i).key (Desk.tag d.serial) = (savings i).draft root := by
    rw [Saving.draft, hi]
  have hdocument : ((savings i).session.toValue.pretty 0).toUTF8.data.toList = (savings i).bytes := rfl
  have hall : (savings i).bytes.take (savings i).bytes.length = (savings i).bytes := List.take_length
  simp only [SessionStore.putFile, hdraft, hdocument, ← hdisk]
  cases hfit : checkKey (savings i).key with
  | error fault => exact ⟨[], t, by simp, .nil t, hdisk, by simp⟩
  | ok _ =>
    cases hmade : t.disk.makeFolders (folderOf root (savings i).key) with
    | error fault => exact ⟨[.makes i], _, by simp, .cons (.leaves hfit hnow hmade) (.nil _), rfl, by simp⟩
    | ok made =>
      have hmakes : Does root savings t (.makes i) (t.advance i .housed made) := .makes hfit hnow hmade
      cases hwritten : made.write ((savings i).draft root) (savings i).bytes with
      | error fault =>
        exact ⟨[.makes i], _, by simp, .cons hmakes (.nil _), by simp [hwritten], by simp [hwritten]⟩
      | ok written =>
        have hwrites : Does root savings (t.advance i .housed made) (.writes i (savings i).bytes.length)
            ((t.advance i .housed made).advance i (.drafted (savings i).bytes.length) written) :=
          .writes (by simp [Progress.Admits]) (by rw [hall]; exact hwritten)
        cases hrenamed : written.rename ((savings i).draft root) (fileOf root (savings i).key) with
        | error fault =>
          exact ⟨[.makes i, .writes i (savings i).bytes.length], _, by simp,
            .cons hmakes (.cons hwrites (.nil _)), by simp [hwritten, hrenamed],
            by simp [hwritten, hrenamed]⟩
        | ok renamed =>
          exact ⟨_, _, List.prefix_rfl, .cons hmakes (.cons hwrites
            (.cons (.moves (advance_progress ..) hrenamed) (.nil _))),
            by simp [hwritten, hrenamed], by simp [hwritten, hrenamed]⟩

theorem Runs.append {root : Path} {savings : ι → Saving} {t t' t'' : Traffic ι}
    {acts acts' : List (FileAct ι)} (h : Runs root savings t acts t')
    (h' : Runs root savings t' acts' t'') : Runs root savings t (acts ++ acts') t'' := by
  induction h with
  | nil t => exact h'
  | cons first rest ih => exact .cons first (ih h')

theorem Runs.split {root : Path} {savings : ι → Saving} {t t'' : Traffic ι}
    {past later : List (FileAct ι)} (h : Runs root savings t (past ++ later) t'') :
    ∃ t', Runs root savings t past t' ∧ Runs root savings t' later t'' := by
  induction past generalizing t with
  | nil => exact ⟨t, .nil t, h⟩
  | cons act past ih =>
    cases h with
    | cons first rest =>
      obtain ⟨t', hpast, hlater⟩ := ih rest
      exact ⟨t', .cons first hpast, hlater⟩

end Traffic

@[simp] theorem latest_nil {ι : Type} (savings : ι → Saving) (key : Session.Key) :
    latest savings key [] = none := rfl

@[simp] theorem latest_makes {ι : Type} (savings : ι → Saving) (key : Session.Key)
    (past : List (FileAct ι)) (i : ι) : latest savings key (past ++ [.makes i]) = latest savings key past := by
  simp [latest]

@[simp] theorem latest_writes {ι : Type} (savings : ι → Saving) (key : Session.Key)
    (past : List (FileAct ι)) (i : ι) (length : Nat) :
    latest savings key (past ++ [.writes i length]) = latest savings key past := by
  simp [latest]

@[simp] theorem latest_looks {ι : Type} (savings : ι → Saving) (key looked : Session.Key)
    (past : List (FileAct ι)) (answer : Except Failure (Option SavedSession)) :
    latest savings key (past ++ [.looks looked answer]) = latest savings key past := by
  simp [latest]

@[simp] theorem latest_moves {ι : Type} (savings : ι → Saving) (key : Session.Key)
    (past : List (FileAct ι)) (i : ι) : latest savings key (past ++ [.moves i]) =
      if (savings i).key = key then some i else latest savings key past := by
  simp [latest]

/-! ## What stays true -/

theorem Saving.stored_draft {s : Saving} (h : checkKey s.key = .ok ()) (disk : Disk) (root : Path) :
    Stored (disk.place root) (disk.place (s.draft root)) :=
  ⟨_, _, SessionStore.place_draft h disk root s.serial⟩

theorem Saving.file_ne_draft {s : Saving} {key : Session.Key} (hkey : checkKey key = .ok ())
    (h : checkKey s.key = .ok ()) (disk : Disk) (root : Path) :
    disk.place (fileOf root key) ≠ disk.place (s.draft root) :=
  SessionStore.file_ne_draft hkey h s.serial

namespace Traffic

variable {ι : Type} {root : Path} {savings : ι → Saving} {disk : Disk}
  {past : List (FileAct ι)} {t : Traffic ι}

/-- The places of drafts, and of the files that something was moved to. -/
def Touched (root : Path) (savings : ι → Saving) (disk : Disk) (past : List (FileAct ι))
    (at_ : List String) : Prop :=
  (∃ i, checkKey (savings i).key = .ok () ∧ at_ = disk.place ((savings i).draft root)) ∨
    ∃ key i, latest savings key past = some i ∧ at_ = disk.place (fileOf root key)

theorem Touched.later {at_ : List String} (h : Touched root savings disk past at_) (act : FileAct ι) :
    Touched root savings disk (past ++ [act]) at_ := by
  rcases h with hdraft | ⟨key, i, hi, hat⟩
  · exact .inl hdraft
  · right
    cases act with
    | makes j => exact ⟨key, i, by rw [latest_makes, hi], hat⟩
    | writes j length => exact ⟨key, i, by rw [latest_writes, hi], hat⟩
    | looks looked answer => exact ⟨key, i, by rw [latest_looks, hi], hat⟩
    | moves j =>
      by_cases hj : (savings j).key = key
      · exact ⟨key, j, by rw [latest_moves, if_pos hj], hat⟩
      · exact ⟨key, i, by rw [latest_moves, if_neg hj, hi], hat⟩

/-- After what has happened since the start: drafts hold the start of their documents, and the file of a
key holds all of what was moved there last. -/
structure Kept (root : Path) (savings : ι → Saving) (disk : Disk) (past : List (FileAct ι))
    (t : Traffic ι) : Prop where
  changes : Changes (disk.place root) (Touched root savings disk past) disk t.disk
  fit : ∀ i, t.progress i ≠ .waiting → checkKey (savings i).key = .ok ()
  drafted : ∀ i length, t.progress i = .drafted length →
    t.disk.node? (disk.place ((savings i).draft root)) =
      some (.file ((savings i).bytes.take length))
  moved : ∀ key i, latest savings key past = some i →
    (savings i).key = key ∧ checkKey key = .ok () ∧
      t.disk.locate (fileOf root key) =
        .ok (disk.place (fileOf root key), some (.file (savings i).bytes))

theorem Kept.start (root : Path) (savings : ι → Saving) (disk : Disk) :
    Kept root savings disk [] (.start ι disk) where
  changes := .refl _ _ _
  fit i h := absurd rfl h
  drafted i length h := by cases h
  moved key i h := by simp at h

/-- A draft that an act does not touch is as it was. -/
theorem Kept.draft_stays {touched : List String → Prop} {d : Disk} (h : Kept root savings disk past t)
    (hd : Changes (disk.place root) touched t.disk d) {i : ι} {length : Nat}
    (hi : t.progress i = .drafted length)
    (hfree : ¬ touched (disk.place ((savings i).draft root))) :
    d.node? (disk.place ((savings i).draft root)) = some (.file ((savings i).bytes.take length)) := by
  have hfit := h.fit i (by rw [hi]; simp)
  rw [hd.inside _ (Saving.stored_draft hfit disk root) hfree, h.drafted i length hi]

/-- So is the file of a key. -/
theorem Kept.file_stays {touched : List String → Prop} {d : Disk} (h : Kept root savings disk past t)
    (hd : Changes (disk.place root) touched t.disk d) {key : Session.Key} {i : ι}
    (hi : latest savings key past = some i) (hfree : ¬ touched (disk.place (fileOf root key))) :
    d.locate (fileOf root key) = .ok (disk.place (fileOf root key), some (.file (savings i).bytes)) := by
  obtain ⟨-, hkey, hl⟩ := h.moved key i hi
  have hplace : t.disk.place (fileOf root key) = disk.place (fileOf root key) :=
    Disk.place_congr h.changes.cwd _
  have hnode := (Prod.mk.inj (Disk.locate_eq_ok hl)).2
  rw [hplace] at hnode
  have hslash := Disk.Path.getLast?_join (SessionStore.isEntry_file hkey).isName (folderOf root key)
  rw [Disk.locate_later hl hslash hd.cwd hd.folders, hplace,
    hd.inside _ (stored_file hkey disk root) hfree, ← hnode]

/-- Drafts of different savings are different places. -/
theorem Kept.draft_free (hdrafts : Function.Injective fun i => (savings i).draft root)
    (h : Kept root savings disk past t) {i j : ι} (hi : checkKey (savings i).key = .ok ())
    (hj : t.progress j ≠ .waiting) (hji : j ≠ i) :
    disk.place ((savings j).draft root) ≠ disk.place ((savings i).draft root) :=
  fun hplace => hji (hdrafts (SessionStore.draft_of_place (h.fit j hj) hi hplace))

variable [DecidableEq ι]

/-- An act of one saving keeps what is true, if it leaves the drafts of the others alone and does what it
should to its own and to the file that it moves there. -/
theorem Kept.advance {touched : List String → Prop} {act : FileAct ι} {i : ι} {now : Progress}
    {d : Disk} (h : Kept root savings disk past t) (hfit : checkKey (savings i).key = .ok ())
    (hd : Changes (disk.place root) touched t.disk d)
    (htouched : ∀ at_, touched at_ → Touched root savings disk (past ++ [act]) at_)
    (hothers : ∀ j, j ≠ i → t.progress j ≠ .waiting →
      ¬ touched (disk.place ((savings j).draft root)))
    (hdrafted : ∀ length, now = .drafted length →
      d.node? (disk.place ((savings i).draft root)) = some (.file ((savings i).bytes.take length)))
    (hmoved : ∀ key j, latest savings key (past ++ [act]) = some j →
      (savings j).key = key ∧ checkKey key = .ok () ∧ d.locate (fileOf root key) =
        .ok (disk.place (fileOf root key), some (.file (savings j).bytes))) :
    Kept root savings disk (past ++ [act]) (t.advance i now d) := by
  constructor
  · exact (h.changes.mono fun _ hat => hat.later act).trans (hd.mono htouched)
  · intro j hj
    by_cases hji : j = i
    · rw [hji, hfit]
    · rw [advance_progress_of_ne hji] at hj
      exact h.fit j hj
  · intro j length hj
    by_cases hji : j = i
    · subst hji
      rw [advance_progress] at hj
      exact hdrafted length hj
    · rw [advance_progress_of_ne hji] at hj
      exact h.draft_stays hd hj (hothers j hji (by simp [hj]))
  · exact hmoved

theorem Kept.makes {i : ι} {now : Progress} {d : Disk} (hdisk : disk.Grounded)
    (hroot : disk.Climbs (disk.start root) root.names) (h : Kept root savings disk past t)
    (hfit : checkKey (savings i).key = .ok ())
    (hmade : Disk.Housed (folderOf root (savings i).key) t.disk d)
    (hnow : ∀ length, now ≠ .drafted length) :
    Kept root savings disk (past ++ [.makes i]) (t.advance i now d) := by
  have hd := Changes.of_housed hdisk hroot hfit h.changes hmade
  apply h.advance hfit hd
  · exact fun _ hnone => hnone.elim
  · exact fun _ _ _ => id
  · exact fun length hdrafted => absurd hdrafted (hnow length)
  · intro key j hj
    rw [latest_makes] at hj
    obtain ⟨hkey, hfit', -⟩ := h.moved key j hj
    exact ⟨hkey, hfit', h.file_stays hd hj id⟩

theorem Kept.writes {i : ι} {length : Nat} {d : Disk}
    (hdrafts : Function.Injective fun i => (savings i).draft root)
    (h : Kept root savings disk past t) (hnow : (t.progress i).Admits length)
    (hwritten : t.disk.write ((savings i).draft root) ((savings i).bytes.take length) = .ok d) :
    Kept root savings disk (past ++ [.writes i length]) (t.advance i (.drafted length) d) := by
  have hfit : checkKey (savings i).key = .ok () := by
    apply h.fit i
    intro hwaiting
    rw [hwaiting] at hnow
    exact hnow
  obtain ⟨hn, rfl⟩ := Disk.write_eq_ok hwritten
  rw [Disk.place_congr h.changes.cwd] at hn ⊢
  have hs := Saving.stored_draft hfit disk root
  have hd := Changes.put_file hs hn ((savings i).bytes.take length)
  apply h.advance hfit hd
  · exact fun _ hat => .inl ⟨i, hfit, hat⟩
  · exact fun j hji hj => h.draft_free hdrafts hfit hj hji
  · intro length' hnow'
    cases hnow'
    exact Disk.node?_put hs.ne_nil _ _
  · intro key j hj
    rw [latest_writes] at hj
    obtain ⟨hkey, hfit', -⟩ := h.moved key j hj
    exact ⟨hkey, hfit', h.file_stays hd hj (Saving.file_ne_draft hfit' hfit disk root)⟩

theorem Kept.moves {i : ι} {d : Disk}
    (hdrafts : Function.Injective fun i => (savings i).draft root)
    (h : Kept root savings disk past t) (hnow : t.progress i = .drafted (savings i).bytes.length)
    (hrenamed : t.disk.rename ((savings i).draft root) (fileOf root (savings i).key) = .ok d) :
    Kept root savings disk (past ++ [.moves i]) (t.advance i .moved d) := by
  have hfit := h.fit i (by rw [hnow]; simp)
  have hcwd := h.changes.cwd
  obtain ⟨content, hcontent, hfile, hn, rfl⟩ := Disk.rename_eq_ok hrenamed
  simp only [Disk.place_congr hcwd] at hcontent hfile hn ⊢
  have hdraft := Saving.stored_draft hfit disk root
  have hstored := stored_file hfit disk root
  have hne := Saving.file_ne_draft hfit hfit disk root
  -- the draft holds the whole document by now
  have hwhole := h.drafted i _ hnow
  rw [hcontent, List.take_length] at hwhole
  obtain rfl : content = (savings i).bytes := Disk.Node.file.inj (Option.some.inj hwhole)
  have hd := Changes.move_file hdraft hstored hne (by simp [hcontent]) hn (savings i).bytes
  apply h.advance hfit hd
  · intro at_ hat
    rcases hat with hat | hat
    · exact .inl ⟨i, hfit, hat⟩
    · exact .inr ⟨(savings i).key, i, by rw [latest_moves, if_pos rfl], hat⟩
  · intro j hji hj
    have hfile' := Saving.file_ne_draft hfit (h.fit j hj) disk root
    exact not_or.mpr ⟨h.draft_free hdrafts hfit hj hji, hfile'.symm⟩
  · intro length hnow'
    cases hnow'
  · intro key j hj
    rw [latest_moves] at hj
    by_cases hkey : (savings i).key = key
    · rw [if_pos hkey] at hj
      obtain rfl : i = j := by simpa using hj
      subst hkey
      have hslash := Disk.Path.getLast?_join (SessionStore.isEntry_file hfit).isName
        (folderOf root (savings i).key)
      refine ⟨rfl, hfit, ?_⟩
      rw [Disk.locate_later hfile hslash hd.cwd hd.folders, Disk.place_congr hcwd,
        Disk.node?_put hstored.ne_nil]
    · rw [if_neg hkey] at hj
      obtain ⟨hkey', hfit', -⟩ := h.moved key j hj
      have hother : disk.place (fileOf root key) ≠ disk.place (fileOf root (savings i).key) :=
        fun hplace => hkey (SessionStore.key_of_place_file hfit' hfit hplace).symm
      have hfree := not_or.mpr ⟨Saving.file_ne_draft hfit' hfit disk root, hother⟩
      exact ⟨hkey', hfit', h.file_stays hd hj hfree⟩

theorem Kept.step {t' : Traffic ι} {act : FileAct ι} (hdisk : disk.Grounded)
    (hroot : disk.Climbs (disk.start root) root.names)
    (hdrafts : Function.Injective fun i => (savings i).draft root)
    (h : Kept root savings disk past t) (hact : Does root savings t act t') :
    Kept root savings disk (past ++ [act]) t' := by
  cases hact with
  | makes fit now made => exact h.makes hdisk hroot fit (.of_makeFolders made) nofun
  | leaves fit now made => exact h.makes hdisk hroot fit (.of_leaveFolders ..) nofun
  | writes now written => exact h.writes hdrafts now written
  | moves now renamed => exact h.moves hdrafts now renamed
  | looks =>
    exact ⟨h.changes.mono fun _ hat => hat.later _, h.fit, h.drafted,
      fun key i hi => h.moved key i (by rwa [latest_looks] at hi)⟩

theorem Kept.run {t' : Traffic ι} {acts : List (FileAct ι)} (hdisk : disk.Grounded)
    (hroot : disk.Climbs (disk.start root) root.names)
    (hdrafts : Function.Injective fun i => (savings i).draft root)
    (h : Kept root savings disk past t) (hrun : Runs root savings t acts t') :
    Kept root savings disk (past ++ acts) t' := by
  induction hrun generalizing past with
  | nil t => rwa [List.append_nil]
  | @cons t t' t'' act acts first rest ih =>
    have hrest := ih (h.step hdisk hroot hdrafts first)
    rwa [List.append_assoc] at hrest

/-! ## What a look is told -/

omit [DecidableEq ι] in
theorem getFile_of_moved {i : ι} {d : Disk} {place : List String}
    (hfit : checkKey (savings i).key = .ok ())
    (h : d.locate (fileOf root (savings i).key) = .ok (place, some (.file (savings i).bytes))) :
    getFile root (Desk.ofDisk d) (savings i).key = (savings i).readBack root := by
  have htext : d.readText (fileOf root (savings i).key) = .ok (savings i).document :=
    Disk.readText_of_file h
  cases hback : SavedSession.ofText (savings i).document with
  | error reason =>
    simp only [getFile, hfit, Desk.ofDisk, htext, Saving.readBack, hback, bind, Except.bind,
      Except.map, Except.mapError]
  | ok session =>
    simp only [getFile, hfit, Desk.ofDisk, htext, Saving.readBack, hback, bind, Except.bind,
      Except.map, Except.mapError]

theorem getFile_congr {d d' : Disk} {key : Session.Key}
    (h : d'.readText (fileOf root key) = d.readText (fileOf root key)) :
    getFile root (Desk.ofDisk d') key = getFile root (Desk.ofDisk d) key := by
  simp only [getFile, Desk.ofDisk, h]

theorem getFile_of_missing {d : Disk} {key : Session.Key} (hfit : checkKey key = .ok ())
    (h : d.readText (fileOf root key) = .error .missing) :
    getFile root (Desk.ofDisk d) key = .ok none := by
  simp only [getFile, hfit, Desk.ofDisk, h, bind, Except.bind]

theorem getFile_of_nameTooLong {d : Disk} {key : Session.Key} (hfit : checkKey key = .ok ())
    (h : d.readText (fileOf root key) = .error .nameTooLong) :
    getFile root (Desk.ofDisk d) key =
      .error (SessionStore.fault (fileOf root key) Disk.Fault.nameTooLong.message) := by
  simp only [getFile, hfit, Desk.ofDisk, h, bind, Except.bind]

omit [DecidableEq ι] in
/-- Before anything is moved to the file of a key, it is read as at the start. -/
theorem Kept.readText_untouched (hdisk : disk.Grounded)
    (hroot : disk.Climbs (disk.start root) root.names) (h : Kept root savings disk past t)
    {key : Session.Key} (hfit : checkKey key = .ok ()) (hnone : latest savings key past = none) :
    t.disk.readText (fileOf root key) = disk.readText (fileOf root key) ∨
      disk.readText (fileOf root key) = .error .missing ∧
        t.disk.readText (fileOf root key) = .error .nameTooLong ∧
        ∃ name ∈ (fileOf root key).names, Disk.nameLimit < name.utf8ByteSize := by
  have hproject := SessionStore.isEntry_project hfit
  have hfile := SessionStore.isEntry_file hfit
  have hstart : disk.start (fileOf root key) = disk.start root := by
    rw [fileOf, Disk.start_join hfile.isName.2, folderOf, Disk.start_join hproject.isName.2]
  have hnames : (fileOf root key).names = (folderOf root key).names ++ [key.state ++ ".json"] :=
    hfile.names_join _
  apply Disk.readText_later hdisk
  · rw [hstart, hnames, folderOf, hproject.names_join]
    exact (hroot.append_singleton hproject.noDots).append_singleton hfile.noDots
  · exact h.changes.cwd
  · intro way name hway
    rw [hstart]
    by_cases hf : disk.node? (lead (disk.start root) way) = some .folder
    · exact .inl ((h.changes.folders _ hf).trans hf.symm)
    · apply h.changes.outside
      rw [hnames] at hway
      have hfolder : way <+: (folderOf root key).names := by
        rcases List.prefix_concat_iff.mp hway with heq | hway
        · exact (List.append_inj' heq rfl).1 ▸ List.prefix_rfl
        · exact (List.prefix_append ..).trans hway
      exact not_stored_of_way hdisk hroot hfit hfolder hf
  · refine h.changes.inside _ (stored_file hfit disk root) ?_
    rintro (⟨i, hi, hplace⟩ | ⟨key', i, hi, hplace⟩)
    · exact Saving.file_ne_draft hfit hi disk root hplace
    · have hkey := SessionStore.key_of_place_file hfit (h.moved key' i hi).2.1 hplace
      rw [hkey, hi] at hnone
      cases hnone

end Traffic

end Rehearsal
