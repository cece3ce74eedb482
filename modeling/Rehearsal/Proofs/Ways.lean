import Mathlib.Data.List.Infix
import Rehearsal.Disk.Listing

/-! # Ways through a disk

Which place a path leads to depends on its names alone; the disk decides whether the way there is open.
A look at a path is compared with the same look at an earlier disk.
-/
namespace Rehearsal.Disk

/-- The place that names lead to. -/
def lead (here names : List String) : List String := names.foldl enter here

@[simp] theorem lead_nil (here : List String) : lead here [] = here := rfl

@[simp] theorem lead_cons (here : List String) (name : String) (names : List String) :
    lead here (name :: names) = lead (enter here name) names := rfl

@[simp] theorem lead_append (here names more : List String) :
    lead here (names ++ more) = lead (lead here names) more :=
  List.foldl_append

theorem enter_of_ne {name : String} (hdot : name ≠ ".") (hdots : name ≠ "..") (here : List String) :
    enter here name = here ++ [name] := by
  simp [enter, hdot, hdots]

/-- Names lead further down as long as none of them goes up. -/
theorem prefix_lead {names : List String} (h : ".." ∉ names) (here : List String) :
    here <+: lead here names := by
  induction names generalizing here with
  | nil => exact List.prefix_rfl
  | cons name names ih =>
    simp only [List.mem_cons, not_or] at h
    have hstep : here <+: enter here name := by
      by_cases hdot : name = "."
      · simp [enter, hdot]
      · rw [enter_of_ne hdot (Ne.symm h.1)]
        exact List.prefix_append ..
    exact hstep.trans (ih h.2 _)

/-- Where a path leads, whether something stands there or not. -/
def place (d : Disk) (p : Path) : List String := lead (d.start p) p.names

theorem start_congr {d d' : Disk} (h : d'.cwd = d.cwd) (p : Path) : d'.start p = d.start p := by
  simp [start, h]

theorem place_congr {d d' : Disk} (h : d'.cwd = d.cwd) (p : Path) : d'.place p = d.place p := by
  simp [place, start_congr h]

/-! ## Following names -/

/-- Why a name cannot be entered from a place. -/
def obstacle (d : Disk) (here : List String) (name : String) : Option Fault :=
  if d.isFolderAt here then if nameLimit < name.utf8ByteSize then some .nameTooLong else none
  else some (if (d.node? here).isSome then .notFolder else .missing)

theorem follow_cons (d : Disk) (here : List String) (name : String) (rest : List String) :
    d.follow here (name :: rest) =
      match d.obstacle here name with
      | some fault => .error fault
      | none => d.follow (enter here name) rest := by
  by_cases hf : d.isFolderAt here = true
  · by_cases hl : nameLimit < name.utf8ByteSize
    · rw [follow]
      simp only [obstacle, hf, hl, Bool.not_true, Bool.false_eq_true, ↓reduceIte]
    · cases rest with
      | nil =>
        rw [follow, follow]
        simp only [obstacle, enter, hf, hl, Bool.not_true, Bool.false_eq_true, ↓reduceIte]
      | cons next rest =>
        rw [follow]
        simp only [obstacle, enter, hf, hl, Bool.not_true, Bool.false_eq_true, ↓reduceIte]
  · rw [follow]
    simp only [obstacle, hf, Bool.not_false, Bool.false_eq_true, ↓reduceIte]

theorem obstacle_cases {d : Disk} {here : List String} {name : String} {fault : Fault}
    (h : d.obstacle here name = some fault) :
    d.node? here = none ∧ fault = .missing ∨
      (∃ content, d.node? here = some (.file content)) ∧ fault = .notFolder ∨
      nameLimit < name.utf8ByteSize ∧ fault = .nameTooLong := by
  unfold obstacle at h
  split at h
  · split at h
    · exact .inr (.inr ⟨‹_›, (Option.some.inj h).symm⟩)
    · cases h
  · rename_i hf
    rw [isFolderAt_iff] at hf
    cases hn : d.node? here with
    | none => exact .inl ⟨rfl, by simpa [hn] using h.symm⟩
    | some node =>
      cases node with
      | folder => exact absurd hn hf
      | file content => exact .inr (.inl ⟨⟨content, rfl⟩, by simpa [hn] using h.symm⟩)

theorem isFolderAt_of_obstacle {d : Disk} {here : List String} {name : String}
    (h : d.obstacle here name = none) : d.isFolderAt here = true := by
  by_contra hf
  simp [obstacle, hf] at h

theorem obstacle_congr {d d' : Disk} {here : List String} (h : d'.node? here = d.node? here)
    (name : String) : d'.obstacle here name = d.obstacle here name := by
  simp [obstacle, isFolderAt, h]

/-- Names that can be followed lead through folders. -/
theorem follow_eq_ok {d : Disk} {here names : List String} {found : List String × Option Node}
    (h : d.follow here names = .ok found) :
    found = (lead here names, d.node? (lead here names)) ∧
      ∀ way name, way ++ [name] <+: names → d.node? (lead here way) = some .folder := by
  induction names generalizing here with
  | nil =>
    rw [follow] at h
    exact ⟨(Except.ok.inj h).symm, fun way name hway => absurd hway.length_le (by simp)⟩
  | cons first rest ih =>
    rw [follow_cons] at h
    cases ho : d.obstacle here first with
    | some fault => simp [ho] at h
    | none =>
      simp only [ho] at h
      obtain ⟨hfound, hfolders⟩ := ih h
      refine ⟨hfound, fun way name hway => ?_⟩
      cases way with
      | nil => exact isFolderAt_iff.mp (isFolderAt_of_obstacle ho)
      | cons name' way =>
        obtain ⟨rfl, hrest⟩ := List.cons_prefix_cons.mp hway
        exact hfolders way name hrest

/-- Names that cannot be followed lead through folders up to an obstacle. -/
theorem follow_eq_error {d : Disk} {here names : List String} {fault : Fault}
    (h : d.follow here names = .error fault) :
    ∃ way name, way ++ [name] <+: names ∧ d.obstacle (lead here way) name = some fault ∧
      ∀ before next, before ++ [next] <+: way → d.node? (lead here before) = some .folder := by
  induction names generalizing here with
  | nil => rw [follow] at h; cases h
  | cons first rest ih =>
    rw [follow_cons] at h
    cases ho : d.obstacle here first with
    | some other =>
      simp only [ho] at h
      cases h
      exact ⟨[], first, by simp, ho, fun before next hb => absurd hb.length_le (by simp)⟩
    | none =>
      simp only [ho] at h
      obtain ⟨way, name, hway, hobstacle, hfolders⟩ := ih h
      refine ⟨first :: way, name, by simpa using hway, hobstacle, fun before next hb => ?_⟩
      cases before with
      | nil => exact isFolderAt_iff.mp (isFolderAt_of_obstacle ho)
      | cons name' before =>
        obtain ⟨rfl, hrest⟩ := List.cons_prefix_cons.mp hb
        exact hfolders before next hrest

/-- On a disk that differs on the way only where nothing stood, names lead where they led before, if
they led anywhere. -/
theorem follow_later {d d' : Disk} {here names : List String}
    (h : ∀ way name, way ++ [name] <+: names →
      d'.node? (lead here way) = d.node? (lead here way) ∨ d.node? (lead here way) = none) :
    d.follow here names = .error .missing ∨
      d'.follow here names = (d.follow here names).map fun found => (found.1, d'.node? found.1) := by
  induction names generalizing here with
  | nil => exact .inr rfl
  | cons first rest ih =>
    rcases h [] first (by simp) with hsame | hnone
    · rw [follow_cons, follow_cons, obstacle_congr (show d'.node? here = d.node? here from hsame)]
      cases d.obstacle here first with
      | some fault => exact .inr rfl
      | none => exact ih fun way name hway => h (first :: way) name (by simpa using hway)
    · left
      have hn : d.node? here = none := hnone
      simp [follow_cons, obstacle, isFolderAt, hn]

/-! ## Whole disks -/

/-- Whatever stands somewhere stands in a folder. -/
def Grounded (d : Disk) : Prop :=
  ∀ at_ name node, d.node? (at_ ++ [name]) = some node → d.node? at_ = some .folder

theorem grounded_of_empty (cwd : List String) : Grounded ⟨cwd, []⟩ := by
  simp [Grounded, node?]

theorem Grounded.above {d : Disk} (hd : d.Grounded) {at_ below : List String} {node : Node}
    (h : at_ <+: below) (hn : d.node? below = some node) :
    at_ = below ∨ d.node? at_ = some .folder := by
  obtain ⟨rest, rfl⟩ := h
  induction rest using List.reverseRecOn generalizing node with
  | nil => exact .inl (by simp)
  | append_singleton rest name ih =>
    rw [← List.append_assoc] at hn
    have hfolder := hd _ _ _ hn
    rcases ih hfolder with h | h
    · exact .inr (by rw [h]; exact hfolder)
    · exact .inr h

/-- Names that go up only from folders. -/
def Climbs (d : Disk) (here names : List String) : Prop :=
  ∀ way, way ++ [".."] <+: names → d.node? (lead here way) = some .folder

theorem climbs_of_not_mem {names : List String} (h : ".." ∉ names) (d : Disk) (here : List String) :
    d.Climbs here names :=
  fun _ hway => absurd (hway.subset (by simp)) h

/-- What is not a folder yet lies above all that the names lead to afterwards. -/
theorem Climbs.prefix_lead {d : Disk} (hd : d.Grounded) {here way rest : List String}
    (h : d.Climbs here (way ++ rest)) (hway : d.node? (lead here way) ≠ some .folder) :
    lead here way <+: lead here (way ++ rest) := by
  rw [lead_append]
  apply Disk.prefix_lead
  intro hup
  obtain ⟨between, after, rfl, hbetween⟩ := List.eq_append_cons_of_mem hup
  have hfolder := h (way ++ between) ⟨after, by simp⟩
  rw [lead_append] at hfolder
  rcases hd.above (Disk.prefix_lead hbetween _) hfolder with heq | hnode
  · exact hway (heq ▸ hfolder)
  · exact hway hnode

theorem Climbs.part {d : Disk} {here names more : List String} (h : d.Climbs here more)
    (hn : names <+: more) : d.Climbs here names :=
  fun way hway => h way (hway.trans hn)

theorem Climbs.append_singleton {d : Disk} {here names : List String} (h : d.Climbs here names)
    {name : String} (hne : name ≠ "..") : d.Climbs here (names ++ [name]) := by
  intro way hway
  rcases List.prefix_concat_iff.mp hway with heq | hway
  · exact absurd (List.append_inj' heq rfl).2 (by simpa using Ne.symm hne)
  · exact h way hway

/-- Where a folder on the way is missing, the way holds no file, and nothing stands at its end. -/
theorem nothing_beyond {d : Disk} (hd : d.Grounded) {here names : List String}
    (hup : d.Climbs here names) (h : d.follow here names = .error .missing) :
    (∀ way, way <+: names → ∀ content, d.node? (lead here way) ≠ some (.file content)) ∧
      d.node? (lead here names) = none := by
  obtain ⟨way, name, hway, hobstacle, hfolders⟩ := follow_eq_error h
  have hnone : d.node? (lead here way) = none := by
    rcases obstacle_cases hobstacle with ⟨hn, -⟩ | ⟨-, hf⟩ | ⟨-, hf⟩
    · exact hn
    · cases hf
    · cases hf
  -- nothing can stand beyond the missing folder
  have hbeyond : ∀ rest, way ++ rest <+: names → d.node? (lead here (way ++ rest)) = none := by
    intro rest hrest
    have hbelow := (hup.part hrest).prefix_lead hd (by simp [hnone])
    cases hn : d.node? (lead here (way ++ rest)) with
    | none => rfl
    | some node =>
      rcases hd.above hbelow hn with heq | hfolder
      · rw [← heq, hnone] at hn
        cases hn
      · rw [hnone] at hfolder
        cases hfolder
  constructor
  · intro other hother content hfile
    rcases List.prefix_or_prefix_of_prefix hother ((List.prefix_append way [name]).trans hway) with
      hbefore | ⟨rest, rfl⟩
    · obtain ⟨rest, rfl⟩ := hbefore
      cases rest with
      | nil =>
        rw [List.append_nil] at hnone
        rw [hnone] at hfile
        cases hfile
      | cons next rest =>
        rw [hfolders other next ⟨rest, by simp⟩] at hfile
        cases hfile
    · rw [hbeyond rest hother] at hfile
      cases hfile
  · obtain ⟨rest, rfl⟩ := hway
    have hend := hbeyond (name :: rest) (by simp)
    simpa using hend

/-! ## Looking again -/

/-- A name between slashes. -/
def Path.IsName (name : String) : Prop := name ≠ "" ∧ '/' ∉ name.toList

/-- A path does not end in a slash when a name is joined to it last. -/
theorem Path.getLast?_join {name : String} (hname : IsName name) (p : Path) :
    (p.join name).toList.getLast? ≠ some '/' := by
  have hend : ∃ before : Path, p.join name = before ++ name := by
    simp only [join, not_isAbsolute hname.2, Bool.false_eq_true, ↓reduceIte]
    split
    · exact ⟨p, rfl⟩
    · exact ⟨p ++ "/", rfl⟩
  obtain ⟨before, hjoin⟩ := hend
  have hne : name.toList ≠ [] := by simpa using hname.1
  rw [hjoin, String.toList_append, List.getLast?_append_of_ne_nil _ hne]
  exact fun hlast => hname.2 (List.mem_of_getLast? hlast)

/-- A path that leads somewhere leads there still as long as folders stay. -/
theorem locate_later {d d' : Disk} {p : Path} {found : List String × Option Node}
    (h : d.locate p = .ok found) (hslash : p.toList.getLast? ≠ some '/') (hcwd : d'.cwd = d.cwd)
    (hfolders : ∀ at_, d.node? at_ = some .folder → d'.node? at_ = some .folder) :
    d'.locate p = .ok (d.place p, d'.node? (d.place p)) := by
  obtain ⟨hp, hf⟩ := follow_of_locate h
  obtain ⟨rfl, hway⟩ := follow_eq_ok hf
  have hsame : ∀ way name, way ++ [name] <+: p.names →
      d'.node? (lead (d.start p) way) = d.node? (lead (d.start p) way) ∨
        d.node? (lead (d.start p) way) = none := fun way name hn =>
    .inl ((hfolders _ (hway way name hn)).trans (hway way name hn).symm)
  have hlater : d'.follow (d'.start p) p.names = .ok (d.place p, d'.node? (d.place p)) := by
    rcases follow_later hsame with hmissing | hmap
    · rw [hmissing] at hf
      cases hf
    · rw [start_congr hcwd, hmap, hf]
      rfl
  rw [locate_eq hp, hlater]
  simp only [bind, Except.bind, if_neg hslash]
  split <;> rfl

theorem readText_congr {d d' : Disk} {p : Path} (h : d'.locate p = d.locate p) :
    d'.readText p = d.readText p := by
  simp only [readText, readBytes, h]

theorem readText_of_error {d : Disk} {p : Path} {fault : Fault} (h : d.locate p = .error fault) :
    d.readText p = .error fault := by
  simp only [readText, readBytes, h, bind, Except.bind]

theorem readText_of_none {d : Disk} {p : Path} {at_ : List String}
    (h : d.locate p = .ok (at_, none)) : d.readText p = .error .missing := by
  simp only [readText, readBytes, h, bind, Except.bind]

/-- A text in a file is read as it was written. -/
theorem readText_of_file {d : Disk} {p : Path} {at_ : List String} {text : String}
    (h : d.locate p = .ok (at_, some (.file text.toUTF8.data.toList))) : d.readText p = .ok text := by
  have hutf : String.fromUTF8? ⟨text.toUTF8.data.toList.toArray⟩ = some text := by
    rw [Array.toArray_toList]
    exact dif_pos text.isValidUTF8
  simp only [readText, readBytes, h, bind, Except.bind, hutf]

theorem locate_of_not_followable {p : Path} (h : ¬ Followable p) (d d' : Disk) :
    d'.locate p = d.locate p := by
  by_cases hnul : p.toList.any (·.toNat = 0) = true
  · simp only [locate, hnul, ↓reduceIte]
    rfl
  by_cases hempty : p = ""
  · simp only [locate, String.isEmpty_iff, hempty, ↓reduceIte]
    rfl
  have hlong : pathLimit < p.utf8ByteSize := by
    by_contra hshort
    exact h ⟨by simpa using hnul, hempty, Nat.not_lt.mp hshort⟩
  simp only [locate, hnul, String.isEmpty_iff, hempty, hlong, ↓reduceIte]
  rfl

theorem readText_of_follow {d : Disk} {p : Path} (hp : Followable p) {fault : Fault}
    (h : d.follow (d.start p) p.names = .error fault) : d.readText p = .error fault := by
  apply readText_of_error
  rw [locate_eq hp, h]
  rfl

/-- Folders that were made on the way since, and nothing else, let a path be read as before, if its
names are not too long. -/
theorem readText_later {d d' : Disk} {p : Path} (hd : d.Grounded) (hup : d.Climbs (d.start p) p.names)
    (hcwd : d'.cwd = d.cwd)
    (hway : ∀ way name, way ++ [name] <+: p.names →
      d'.node? (lead (d.start p) way) = d.node? (lead (d.start p) way) ∨
        d.node? (lead (d.start p) way) = none ∧ d'.node? (lead (d.start p) way) = some .folder)
    (hend : d'.node? (d.place p) = d.node? (d.place p)) :
    d'.readText p = d.readText p ∨
      d.readText p = .error .missing ∧ d'.readText p = .error .nameTooLong ∧
        ∃ name ∈ p.names, nameLimit < name.utf8ByteSize := by
  by_cases hp : Followable p
  · rcases follow_later fun way name hn => (hway way name hn).imp id And.left with hmissing | hsame
    · have hthen := readText_of_follow hp hmissing
      obtain ⟨hnofile, hnone⟩ := nothing_beyond hd hup hmissing
      cases hf : d'.follow (d'.start p) p.names with
      | ok found =>
        obtain rfl := (follow_eq_ok hf).1
        left
        rw [hthen]
        have hplace : d'.node? (lead (d'.start p) p.names) = none := by
          rw [start_congr hcwd]
          exact hend.trans hnone
        rw [hplace] at hf
        exact readText_of_none (by rw [locate_eq hp, hf]; rfl)
      | error fault =>
        have hnow := readText_of_follow hp hf
        obtain ⟨way, name, hn, hobstacle, -⟩ := follow_eq_error hf
        rcases obstacle_cases hobstacle with ⟨-, rfl⟩ | ⟨⟨content, hfile⟩, rfl⟩ | ⟨hlong, rfl⟩
        · exact .inl (hnow.trans hthen.symm)
        · rw [start_congr hcwd] at hfile
          rcases hway way name hn with hsame | ⟨-, hfolder⟩
          · exact absurd (hsame.symm.trans hfile)
              (hnofile way ((List.prefix_append ..).trans hn) content)
          · rw [hfolder] at hfile
            cases hfile
        · exact .inr ⟨hthen, hnow, name, hn.subset (by simp), hlong⟩
    · have hfollow : d'.follow (d'.start p) p.names = d.follow (d.start p) p.names := by
        rw [start_congr hcwd, hsame]
        cases hf : d.follow (d.start p) p.names with
        | error fault => rfl
        | ok found =>
          obtain rfl := (follow_eq_ok hf).1
          exact congrArg (fun node => Except.ok (d.place p, node)) hend
      exact .inl (readText_congr (by rw [locate_eq hp, locate_eq hp, hfollow]))
  · exact .inl (readText_congr (locate_of_not_followable hp d d'))

end Rehearsal.Disk
