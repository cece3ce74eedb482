import Rehearsal.Proofs.Onlookers
import Rehearsal.Proofs.StorePlaces

/-! # Artifacts in a folder of their own

A run whose scenarios, sessions and files lie outside the folder of its artifacts goes the same whatever
is put in that folder. What is looked at outside is the same on the disk without the folder, and what is
changed outside is changed on that disk alike.
-/
namespace Rehearsal

namespace Disk

/-- The disk without a folder and all that stands in it. -/
def besides (dir : Path) (d : Disk) : Disk :=
  { d with nodes := d.nodes.filter fun node => decide (¬ d.place dir <+: node.1) }

/-- Wherever relative paths start, the way of the path does not lead into the folder. -/
def Path.Clear (dir p : Path) : Prop :=
  ∀ (d : Disk) (way : List String), way <+: p.names → ¬ d.place dir <+: lead (d.start p) way

/-- Neither leads to the other, nor into it. -/
structure Path.Apart (dir p : Path) : Prop where
  clear : Clear dir p
  above : ∀ d : Disk, ¬ d.place p <+: d.place dir

section

variable {dir p q : Path} {d : Disk} {at_ : List String}

@[simp] theorem besides_cwd (dir : Path) (d : Disk) : (d.besides dir).cwd = d.cwd := rfl

@[simp] theorem besides_start (dir : Path) (d : Disk) (p : Path) :
    (d.besides dir).start p = d.start p := rfl

theorem node?_besides (h : ¬ d.place dir <+: at_) : (d.besides dir).node? at_ = d.node? at_ := by
  have hlookup := lookup_filter (p := fun place => decide (¬ d.place dir <+: place))
    (decide_eq_true h) d.nodes
  simp only [node?, besides, hlookup]

theorem put_besides (h : ¬ d.place dir <+: at_) (n : Node) :
    (d.put at_ n).besides dir = (d.besides dir).put at_ n := by
  have hplace : (d.put at_ n).place dir = d.place dir := rfl
  have hfilter := List.filter_comm (fun node : List String × Node => decide (¬ d.place dir <+: node.1))
    (fun node => decide (node.1 ≠ at_)) d.nodes
  simp only [besides, hplace]
  simp only [put]
  rw [List.filter_cons_of_pos (by simpa using h), hfilter]

theorem put_within (h : d.place dir <+: at_) (n : Node) :
    (d.put at_ n).besides dir = d.besides dir := by
  have hplace : (d.put at_ n).place dir = d.place dir := rfl
  simp only [besides, hplace]
  simp only [put]
  rw [List.filter_cons_of_neg (by simpa using h), List.filter_filter]
  congr 1
  refine List.filter_congr fun node _ => ?_
  by_cases hnode : node.1 = at_
  · simp [hnode, h]
  · simp [hnode]

theorem remove_besides (d : Disk) (dir : Path) (at_ : List String) :
    (d.remove at_).besides dir = (d.besides dir).remove at_ := by
  have hplace : (d.remove at_).place dir = d.place dir := rfl
  have hfilter := List.filter_comm (fun node : List String × Node => decide (¬ d.place dir <+: node.1))
    (fun node => decide (node.1 ≠ at_)) d.nodes
  simp only [besides, hplace]
  simp only [remove]
  rw [hfilter]

/-! ## Paths that stay outside -/

namespace Path

theorem Clear.place (h : Clear dir p) (d : Disk) : ¬ d.place dir <+: d.place p :=
  h d p.names List.prefix_rfl

theorem Clear.parent (h : Clear dir p) (hq : p.parent? = some q) : Clear dir q := by
  obtain ⟨habs, hnames⟩ := of_parent? hq
  intro d way hway
  rw [hnames] at hway
  obtain ⟨way', hway', hlead⟩ :=
    lead_of_prefix_components (hway.trans (List.dropLast_prefix _)) (d.start q)
  have hstart : d.start q = d.start p := by simp [start, habs]
  rw [← hlead, hstart]
  exact h d way' hway'

theorem Apart.join {name : String} (h : Apart dir p) (hname : IsEntry name) :
    Apart dir (p.join name) := by
  refine ⟨fun d way hway => ?_, fun d habove => ?_⟩
  · rw [start_join hname.isName.2]
    rw [hname.names_join] at hway
    rcases List.prefix_concat_iff.mp hway with rfl | hway
    · rw [lead_append, lead_cons, lead_nil, enter_of_ne hname.noDot hname.noDots]
      intro hinside
      rcases List.prefix_concat_iff.mp hinside with heq | hinside
      · exact h.above d (heq ▸ List.prefix_append ..)
      · exact h.clear.place d hinside
    · exact h.clear d way hway
  · rw [place_join hname] at habove
    exact h.above d ((List.prefix_append ..).trans habove)

theorem Apart.folder (h : Apart dir p) : Apart dir p.folder := by
  by_cases hp : p = ""
  · subst hp
    have hstart : ∀ d : Disk, d.start (Path.folder "") = d.start "" := fun _ => rfl
    have hnames : names (Path.folder "") = ["."] := by decide
    have hplace : ∀ d : Disk, d.place (Path.folder "") = d.place "" := fun _ => rfl
    refine ⟨fun d way hway => ?_, fun d => ?_⟩
    · rw [hnames] at hway
      rw [hstart]
      rcases List.prefix_concat_iff.mp (show way <+: [] ++ ["."] from hway) with rfl | hnil
      · exact h.clear.place d
      · exact h.clear d way (List.prefix_nil.mp hnil ▸ List.nil_prefix)
    · rw [hplace]
      exact h.above d
  · have hself : p.folder = p := by simp [Path.folder, hp]
    rwa [hself]

end Path

/-! ## Operations outside -/

theorem follow_congr {d d' : Disk} {here names : List String}
    (h : ∀ way, way <+: names → d'.node? (lead here way) = d.node? (lead here way)) :
    d'.follow here names = d.follow here names := by
  induction names generalizing here with
  | nil =>
    have hhere : d'.node? here = d.node? here := h [] List.prefix_rfl
    rw [follow, follow, hhere]
  | cons name names ih =>
    have hhere : d'.node? here = d.node? here := h [] List.nil_prefix
    rw [follow_cons, follow_cons, obstacle_congr hhere,
      ih fun way hway => h (name :: way) (List.cons_prefix_cons.mpr ⟨rfl, hway⟩)]

theorem locate_besides (h : Path.Clear dir p) : (d.besides dir).locate p = d.locate p := by
  by_cases hp : Followable p
  · have hfollow : (d.besides dir).follow (d.start p) p.names = d.follow (d.start p) p.names :=
      follow_congr fun way hway => node?_besides (h d way hway)
    rw [locate_eq hp, locate_eq hp, besides_start, hfollow]
  · exact locate_of_not_followable hp d _

theorem has_besides (h : Path.Clear dir p) : (d.besides dir).has p = d.has p := by
  rw [has, has, locate_besides h]

theorem isFolder?_besides (h : Path.Clear dir p) : (d.besides dir).isFolder? p = d.isFolder? p := by
  rw [isFolder?, isFolder?, locate_besides h]

theorem readBytes_besides (h : Path.Clear dir p) : (d.besides dir).readBytes p = d.readBytes p := by
  rw [readBytes, readBytes, locate_besides h]

theorem readText_besides (h : Path.Clear dir p) : (d.besides dir).readText p = d.readText p := by
  rw [readText, readText, readBytes_besides h]

/-- What a folder outside lists is outside as well. -/
theorem list_besides (h : Path.Apart dir p) : (d.besides dir).list p = d.list p := by
  unfold list
  rw [locate_besides h.clear]
  cases hl : d.locate p with
  | error fault => rfl
  | ok found =>
    obtain rfl := locate_eq_ok hl
    have hnames : ((d.besides dir).nodes.filterMap fun node =>
          if node.1.dropLast = d.place p ∧ node.1 ≠ [] then node.1.getLast? else none) =
        d.nodes.filterMap fun node =>
          if node.1.dropLast = d.place p ∧ node.1 ≠ [] then node.1.getLast? else none := by
      rw [besides, List.filterMap_filter]
      refine List.filterMap_congr fun node _ => ?_
      by_cases hinside : d.place dir <+: node.1
      · rw [if_neg (by simpa using hinside), if_neg]
        rintro ⟨hlast, hne⟩
        rw [← List.dropLast_append_getLast hne, hlast] at hinside
        rcases List.prefix_concat_iff.mp hinside with heq | hinside
        · exact h.above d (heq ▸ List.prefix_append ..)
        · exact h.clear.place d hinside
      · rw [if_pos (by simpa using hinside)]
    rcases d.node? (d.place p) with _ | _ | content
    · rfl
    · exact congrArg (fun names => Except.ok (sortStrings names)) hnames
    · rfl

theorem write_besides (h : Path.Clear dir p) (content : Bytes) :
    (d.besides dir).write p content = (d.write p content).map (besides dir) := by
  unfold write
  rw [locate_besides h]
  cases hl : d.locate p with
  | error fault => rfl
  | ok found =>
    obtain rfl := locate_eq_ok hl
    have hput := put_besides (h.place d) (.file content)
    simp only [bind, Except.bind]
    split
    · rfl
    · rw [Except.map, hput]
    · split
      · rfl
      · rw [Except.map, hput]

theorem makeFolder_besides (h : Path.Clear dir p) :
    (d.besides dir).makeFolder p = (d.makeFolder p).map (besides dir) := by
  unfold makeFolder
  rw [locate_besides h]
  cases hl : d.locate p with
  | error fault => rfl
  | ok found =>
    obtain rfl := locate_eq_ok hl
    simp only [bind, Except.bind]
    split
    · rfl
    · rw [Except.map, put_besides (h.place d)]

theorem makeFoldersWithin_besides (depth : Nat) (h : Path.Clear dir p) :
    makeFoldersWithin depth (d.besides dir) p = (makeFoldersWithin depth d p).map (besides dir) := by
  induction depth generalizing d p with
  | zero => exact makeFolder_besides h
  | succ depth ih =>
    have hfound : ∀ (d : Disk) (fault : Fault),
        (if (d.besides dir).isFolder? p then .ok (d.besides dir) else .error fault) =
          (if d.isFolder? p then .ok d else .error fault : Except Fault Disk).map (besides dir) := by
      intro d fault
      rw [isFolder?_besides h]
      split <;> rfl
    rw [makeFoldersWithin, makeFoldersWithin, makeFolder_besides h]
    split
    · rfl
    cases d.makeFolder p with
    | ok made => rfl
    | error fault =>
      cases fault with
      | missing =>
        cases hq : p.parent? with
        | none => rfl
        | some q =>
          simp only [Except.map, ih (h.parent hq)]
          cases makeFoldersWithin depth d q with
          | error fault => rfl
          | ok between =>
            simp only [makeFolder_besides h]
            cases between.makeFolder p with
            | ok made => rfl
            | error fault => exact hfound between fault
      | _ => exact hfound d _

theorem leaveFoldersWithin_besides (depth : Nat) (h : Path.Clear dir p) :
    leaveFoldersWithin depth (d.besides dir) p = (leaveFoldersWithin depth d p).besides dir := by
  have hattempt : ∀ {p}, Path.Clear dir p → ∀ d : Disk,
      ((d.besides dir).makeFolder p).toOption.getD (d.besides dir) =
        ((d.makeFolder p).toOption.getD d).besides dir := by
    intro p h d
    rw [makeFolder_besides h]
    cases d.makeFolder p with
    | ok made => rfl
    | error fault => rfl
  induction depth generalizing p with
  | zero => exact hattempt h d
  | succ depth ih =>
    rw [leaveFoldersWithin, leaveFoldersWithin, makeFolder_besides h]
    split
    · rfl
    cases d.makeFolder p with
    | ok made => rfl
    | error fault =>
      cases fault with
      | missing =>
        cases hq : p.parent? with
        | none => rfl
        | some q =>
          simp only [Except.map, makeFoldersWithin_besides depth (h.parent hq)]
          cases makeFoldersWithin depth d q with
          | error fault => exact ih (h.parent hq)
          | ok between => exact hattempt h between
      | _ => rfl

theorem rename_besides (hp : Path.Clear dir p) (hq : Path.Clear dir q) :
    (d.besides dir).rename p q = (d.rename p q).map (besides dir) := by
  unfold rename
  rw [locate_besides hp, locate_besides hq]
  cases hl : d.locate p with
  | error fault => rfl
  | ok moved =>
    cases ht : d.locate q with
    | error fault => rfl
    | ok found =>
      obtain rfl := locate_eq_ok ht
      simp only [bind, Except.bind]
      split
      · rfl
      · rfl
      · rfl
      · have hplace : ¬ (d.remove moved.1).place dir <+: d.place q := hq.place d
        rw [Except.map, put_besides hplace, remove_besides]

end

end Disk

open Disk (Path)
open Disk.Path (Apart Clear IsEntry)

/-! ## Services outside -/

/-- The desk without the folder, and without what is kept for onlookers in memory. -/
def Desk.besides (dir : Path) (d : Desk) : Desk :=
  { d with disk := d.disk.besides dir, screenshots := [], results := [] }

/-- The store does not notice that something is hidden from its desk. -/
structure SessionStore.Blind (store : SessionStore) (hide : Desk → Desk) : Prop where
  get : ∀ (d : Desk) (key : Session.Key), store.get (hide d) key = store.get d key
  put : ∀ (d : Desk) (key : Session.Key) (session : SavedSession),
    store.put (hide d) key session =
      ((store.put d key session).1, hide (store.put d key session).2.1, (store.put d key session).2.2)

/-- Nor does the source. -/
structure ScenarioSource.Blind (source : ScenarioSource) (hide : Desk → Desk) : Prop where
  load : ∀ d, source.load (hide d) = source.load d
  ids : ∀ d, source.ids (hide d) = source.ids d

section

variable {dir root : Path}

namespace SessionStore

theorem blind_memory (dir : Path) : SessionStore.memory.Blind (Desk.besides dir) :=
  ⟨fun _ _ => rfl, fun _ _ _ => rfl⟩

theorem apart_folder (h : Apart dir root) {key : Session.Key} (hkey : checkKey key = .ok ()) :
    Apart dir (folderOf root key) :=
  h.join (isEntry_project hkey)

theorem getFile_besides (h : Apart dir root) (d : Desk) (key : Session.Key) :
    getFile root (d.besides dir) key = getFile root d key := by
  unfold getFile
  cases hkey : checkKey key with
  | error e => rfl
  | ok u =>
    have hread : (d.besides dir).disk.readText (fileOf root key) = d.disk.readText (fileOf root key) :=
      Disk.readText_besides ((apart_folder h hkey).join (isEntry_file hkey)).clear
    simp only [bind, Except.bind, hread]

theorem putFile_besides (h : Apart dir root) (d : Desk) (key : Session.Key) (session : SavedSession) :
    putFile root (d.besides dir) key session =
      ((putFile root d key session).1, (putFile root d key session).2.1.besides dir,
        (putFile root d key session).2.2) := by
  unfold putFile
  cases hkey : checkKey key with
  | error e => rfl
  | ok u =>
    have hfolder := apart_folder h hkey
    have hdraft := (hfolder.join (isEntry_draft hkey (slash_not_mem_tag d.serial))).clear
    have hfile := (hfolder.join (isEntry_file hkey)).clear
    have hmade : (d.besides dir).disk.makeFolders (folderOf root key) =
        (d.disk.makeFolders (folderOf root key)).map (Disk.besides dir) :=
      Disk.makeFoldersWithin_besides _ hfolder.clear
    have hleft : (d.besides dir).disk.leaveFolders (folderOf root key) =
        (d.disk.leaveFolders (folderOf root key)).besides dir :=
      Disk.leaveFoldersWithin_besides _ hfolder.clear
    simp only [hmade, hleft]
    cases d.disk.makeFolders (folderOf root key) with
    | error fault => rfl
    | ok made =>
      have hserial : (d.besides dir).serial = d.serial := rfl
      simp only [Except.map, hserial, draftOf, Disk.write_besides hdraft]
      cases made.write ((folderOf root key).join _) _ with
      | error fault => rfl
      | ok written =>
        simp only [Except.map, fileOf, Disk.rename_besides hdraft hfile]
        cases written.rename ((folderOf root key).join _) ((folderOf root key).join _) with
        | error fault => rfl
        | ok renamed => rfl

theorem blind_files (h : Apart dir root) : (SessionStore.files root).Blind (Desk.besides dir) :=
  ⟨getFile_besides h, putFile_besides h⟩

end SessionStore

namespace ScenarioSource

theorem blind_memory (scenarios : List Scenario) (dir : Path) :
    (ScenarioSource.memory scenarios).Blind (Desk.besides dir) :=
  ⟨fun _ => rfl, fun _ => rfl⟩

theorem isEntry_of_isFileId {id : String} (h : isFileId id = true) : IsEntry (id ++ ".json") := by
  simp only [isFileId, Bool.and_eq_true, Bool.not_eq_true', List.any_eq_false] at h
  have hslash : '/' ∉ id.toList := fun hmem => h.1 '/' hmem (by decide)
  have hend : ".json".length = 5 := by decide
  exact IsEntry.of_length (by simp [hslash]) (by rw [String.length_append, hend]; omega)

theorem loadFrom_besides (h : Apart dir root) (d : Desk) :
    loadFrom root (d.besides dir) = loadFrom root d := by
  funext id
  unfold loadFrom
  cases hid : isFileId id with
  | false => rfl
  | true =>
    have hread : (d.besides dir).disk.readText (root.join (id ++ ".json")) =
        d.disk.readText (root.join (id ++ ".json")) :=
      Disk.readText_besides (h.join (isEntry_of_isFileId hid)).clear
    simp only [loadFile, hread]

theorem blind_folder (h : Apart dir root) : (ScenarioSource.folder root).Blind (Desk.besides dir) := by
  refine ⟨loadFrom_besides h, fun d => ?_⟩
  have hlist : (d.besides dir).disk.list root.folder = d.disk.list root.folder :=
    Disk.list_besides h.folder
  show folderIds root (d.besides dir) = folderIds root d
  rw [folderIds, folderIds, hlist]

end ScenarioSource

/-- The desks are the same besides the folder and what is kept for onlookers in memory. -/
def Desk.SameBesides (dir : Path) (d d' : Desk) : Prop := d.besides dir = d'.besides dir

theorem Desk.equivalence_sameBesides (dir : Path) : Equivalence (SameBesides dir) :=
  ⟨fun _ => rfl, Eq.symm, Eq.trans⟩

/-- Only the files that steps upload or paste are looked at. -/
theorem Bench.filePath_of_file? {b : Bench} {d : Desk} {scope : Scope} {step : Step} {task : Task}
    {path : Path} (h : b.task d scope step = .ok task) (hpath : task.deed.file? = some path) :
    ∃ target raw,
      (step.instruction = .uploadFile target raw ∨ step.instruction = .pasteImage target raw) ∧
        b.filePath d scope raw = .ok path := by
  obtain ⟨deed, made, rfl⟩ := of_map_eq_ok h
  simp only at hpath
  unfold Bench.deed at made
  cases hinstruction : step.instruction <;> simp only [hinstruction] at made
  case uploadFile target raw =>
    obtain ⟨_, found, rfl⟩ := of_map_eq_ok made
    obtain rfl := Option.some.inj hpath
    exact ⟨target, raw, .inl rfl, found⟩
  case pasteImage target raw =>
    obtain ⟨_, found, rfl⟩ := of_map_eq_ok made
    obtain rfl := Option.some.inj hpath
    exact ⟨target, raw, .inr rfl, found⟩
  case wait value => split at made <;> cases made; cases hpath
  all_goals cases made; cases hpath

/-- Where the services and the files of steps are outside the folder, nobody looks into it. -/
theorem Stage.heeds_besides {σ : Type} (stage : Stage σ) {fit : Step → Prop}
    (resources : ∀ d, stage.resources.resolve (d.besides dir) = stage.resources.resolve d)
    (sessions : stage.sessions.Blind (Desk.besides dir))
    (scenarios : stage.scenarios.Blind (Desk.besides dir))
    (files : ∀ {d : Desk} {scope : Scope} {step : Step} {target raw : String} {path : Path}, fit step →
      step.instruction = .uploadFile target raw ∨ step.instruction = .pasteImage target raw →
      stage.filePath d scope raw = .ok path → Clear dir path) :
    stage.Heeds (Desk.SameBesides dir) fit where
  equivalence := Desk.equivalence_sameBesides dir
  task {d d'} scope step _ h := by
    have hfile : ∀ d : Desk, stage.filePath (d.besides dir) = stage.filePath d := by
      intro d
      funext scope raw
      rw [Bench.filePath, resources]
      rfl
    have htask : ∀ d : Desk, stage.task (d.besides dir) scope step = stage.task d scope step := by
      intro d
      unfold Bench.task Bench.deed
      rw [hfile]
      rfl
    rw [← htask d, h, htask d']
  file {d d'} _ _ _ _ path hfit h made hpath := by
    obtain ⟨target, raw, named, found⟩ := Bench.filePath_of_file? made hpath
    have hclear := files hfit named found
    have hdisk : d.disk.besides dir = d'.disk.besides dir := congrArg Desk.disk h
    exact ⟨by rw [← Disk.has_besides hclear, hdisk, Disk.has_besides hclear],
      by rw [← Disk.readBytes_besides hclear, hdisk, Disk.readBytes_besides hclear]⟩
  get {d d'} key h := by rw [← sessions.get d, h, sessions.get d']
  put {d d'} key session h := by
    have hput := sessions.put d key session
    rw [h, sessions.put d' key session] at hput
    obtain ⟨answer, hrest⟩ := Prod.mk.inj hput
    obtain ⟨desk, lines⟩ := Prod.mk.inj hrest
    exact ⟨answer.symm, lines.symm, desk.symm⟩
  load {d d'} h := by rw [← scenarios.load d, h, scenarios.load d']
  ids {d d'} h := by rw [← scenarios.ids d, h, scenarios.ids d']

/-! ## Sinks -/

theorem IsStem.slash_not_mem {stem : String} (h : IsStem stem) : '/' ∉ stem.toList := by
  obtain ⟨number, action, rfl⟩ := h
  have hdigit : ∀ n, Text.digitChar n ≠ '/' := by
    intro n
    have hten : ∀ digit < 10, Char.ofNat (48 + digit) ≠ '/' := by decide
    exact hten (n % 10) (Nat.mod_lt _ (by decide))
  have hdigits : ∀ fuel n, '/' ∉ Text.digitsLeast fuel n := by
    intro fuel
    induction fuel with
    | zero => simp [Text.digitsLeast]
    | succ fuel ih =>
      intro n
      have hrest : '/' ∉ if n < 10 then [] else Text.digitsLeast fuel (n / 10) := by
        split
        · simp
        · exact ih (n / 10)
      simpa [Text.digitsLeast, Ne.symm (hdigit n)] using hrest
  have hword : '/' ∉ action.word.toList := by cases action <;> decide
  have hpadded : '/' ∉ (Text.padded 3 number).toList := by
    simp [Text.padded, hdigits]
  simp [Play.stem, hpadded, hword]

theorem IsPicture.isEntry {name : String} (h : IsPicture name) : IsEntry name := by
  cases h with
  | shot h =>
    have hend : ".png".length = 4 := by decide
    exact .of_length (by simp [h.slash_not_mem]) (by rw [String.length_append, hend]; omega)
  | error h =>
    have hend : "_error.png".length = 10 := by decide
    exact .of_length (by simp [h.slash_not_mem]) (by rw [String.length_append, hend]; omega)

namespace ArtifactSink

/-- The sink where some writings fail, told by what is on the desk and by the name. -/
def failing (sink : ArtifactSink) (fault? : Desk → String → Option Failure) : ArtifactSink where
  storeScreenshot d name png :=
    match fault? d name with
    | some e => (.error e, d)
    | none => sink.storeScreenshot d name png
  storeResult d record :=
    match fault? d resultName with
    | some e => (.error e, d)
    | none => sink.storeResult d record
  location := sink.location

theorem within_memory (dir : Path) : ArtifactSink.memory.Within (Desk.SameBesides dir) :=
  ⟨fun _ _ _ _ => rfl, fun _ _ => rfl⟩

theorem write_within {name : String} (hname : IsEntry name) (d : Desk) (content : Disk.Bytes) :
    d.SameBesides dir (write d (dir.join name) content).2 := by
  unfold write
  cases hw : d.disk.write (dir.join name) content with
  | error fault => rfl
  | ok disk =>
    obtain ⟨-, rfl⟩ := Disk.write_eq_ok hw
    have hinside : d.disk.place dir <+: d.disk.place (dir.join name) := by
      rw [Disk.place_join hname]
      exact List.prefix_append ..
    have hput := Disk.put_within hinside (.file content)
    simp only [Desk.SameBesides, Desk.besides, hput]

theorem within_folder (dir : Path) : (ArtifactSink.folder dir).Within (Desk.SameBesides dir) where
  screenshot d _ png hname := write_within hname.isEntry d png
  result d record := by
    have hname : IsEntry resultName := ⟨⟨by decide, by decide⟩, by decide, by decide⟩
    exact write_within hname d _

theorem Within.failing {sink : ArtifactSink} {D : Desk → Desk → Prop} (h : sink.Within D)
    (refl : ∀ d, D d d) (fault? : Desk → String → Option Failure) : (sink.failing fault?).Within D where
  screenshot d name png hname := by
    simp only [ArtifactSink.failing]
    split
    · exact refl d
    · exact h.screenshot d png hname
  result d record := by
    simp only [ArtifactSink.failing]
    split
    · exact refl d
    · exact h.result d record

end ArtifactSink

end

end Rehearsal
