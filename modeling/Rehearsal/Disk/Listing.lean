import Rehearsal.Disk.Basic

/-! # Listing folders

What can be found under a name in a folder is among the names listed there.
-/
namespace Rehearsal.Disk

/-- The place that a name leads to. -/
def enter (here : List String) (name : String) : List String :=
  if name = "." then here else if name = ".." then here.dropLast else here ++ [name]

theorem isFolderAt_iff {d : Disk} {at_ : List String} :
    d.isFolderAt at_ = true ↔ d.node? at_ = some .folder := by
  simp [isFolderAt]

/-- What is followed further is a folder, and its name is short enough. -/
theorem follow_cons_of_eq_ok {d : Disk} {here : List String} {first : String} {rest : List String}
    {found : List String × Option Node} (h : d.follow here (first :: rest) = .ok found) :
    d.isFolderAt here = true ∧
      ∀ more, d.follow here (first :: more) = d.follow (enter here first) more := by
  by_cases hf : d.isFolderAt here = true
  · by_cases hl : nameLimit < first.utf8ByteSize
    · rw [follow] at h
      simp only [hf, hl, Bool.not_true, Bool.false_eq_true, ↓reduceIte, reduceCtorEq] at h
    · refine ⟨hf, fun more => ?_⟩
      cases more with
      | nil =>
        rw [follow, follow]
        simp only [hf, hl, enter, Bool.not_true, Bool.false_eq_true, ↓reduceIte]
      | cons name names =>
        rw [follow]
        simp only [hf, hl, enter, Bool.not_true, Bool.false_eq_true, ↓reduceIte]
  · rw [follow] at h
    simp only [hf, Bool.not_false, ↓reduceIte, reduceCtorEq] at h

/-- The way to a name leads through the folder that it is in. -/
theorem follow_append_singleton {d : Disk} {here : List String} {names : List String} {name : String}
    {found : List String × Option Node} (h : d.follow here (names ++ [name]) = .ok found) :
    ∃ place, d.follow here names = .ok (place, some .folder) ∧
      found = (enter place name, d.node? (enter place name)) := by
  induction names generalizing here with
  | nil =>
    obtain ⟨hf, hnext⟩ := follow_cons_of_eq_ok h
    rw [List.nil_append, hnext, follow] at h
    refine ⟨here, ?_, by cases h; rfl⟩
    rw [follow, isFolderAt_iff.mp hf]
  | cons first rest ih =>
    obtain ⟨-, hnext⟩ := follow_cons_of_eq_ok h
    rw [List.cons_append, hnext] at h
    obtain ⟨place, hp, hfound⟩ := ih h
    exact ⟨place, by rw [hnext, hp], hfound⟩

/-- Where a path starts. -/
def start (d : Disk) (p : Path) : List String := if p.isAbsolute then [] else d.cwd

/-- A path that can be followed at all. -/
structure Followable (p : Path) : Prop where
  noNul : p.toList.any (·.toNat = 0) = false
  nonempty : p ≠ ""
  short : p.utf8ByteSize ≤ pathLimit

theorem locate_eq {d : Disk} {p : Path} (h : Followable p) :
    d.locate p = d.follow (d.start p) p.names >>= fun found =>
      match found.2 with
      | some (.file _) => if p.toList.getLast? = some '/' then .error .notFolder else .ok found
      | _ => .ok found := by
  have hempty : p.isEmpty = false := by simpa [String.isEmpty_iff] using h.nonempty
  unfold locate start
  rw [h.noNul, hempty, if_neg (Nat.not_lt.mpr h.short)]
  rfl

theorem follow_of_locate {d : Disk} {p : Path} {found : List String × Option Node}
    (h : d.locate p = .ok found) :
    Followable p ∧ d.follow (d.start p) p.names = .ok found := by
  have hp : Followable p := by
    by_cases hnul : p.toList.any (·.toNat = 0) = true
    · simp only [locate, hnul, ↓reduceIte] at h
      cases h
    by_cases hempty : p = ""
    · simp only [locate, String.isEmpty_iff, hempty, ↓reduceIte] at h
      cases h
    by_cases hlong : pathLimit < p.utf8ByteSize
    · simp only [locate, hnul, String.isEmpty_iff, hempty, hlong, ↓reduceIte] at h
      cases h
    exact ⟨by simpa using hnul, hempty, Nat.not_lt.mp hlong⟩
  refine ⟨hp, ?_⟩
  rw [locate_eq hp] at h
  cases hf : d.follow (d.start p) p.names with
  | error fault => rw [hf] at h; cases h
  | ok other =>
    rw [hf] at h
    obtain ⟨place, node⟩ := other
    rcases node with _ | _ | content
    · exact h
    · exact h
    · change (if p.toList.getLast? = some '/' then _ else _) = _ at h
      split at h
      · cases h
      · exact h

theorem locate_of_follow {d : Disk} {p : Path} {place : List String} (hp : Followable p)
    (h : d.follow (d.start p) p.names = .ok (place, some .folder)) :
    d.locate p = .ok (place, some .folder) := by
  rw [locate_eq hp, h]
  rfl

/-- A name joined to a path is looked up in the folder of the path. -/
theorem locate_folder_of_join {d : Disk} {p : Path} {name : String}
    {found : List String × Option Node} (hslash : '/' ∉ name.toList) (hne : name ≠ "")
    (h : d.locate (p.join name) = .ok found) :
    ∃ place, d.locate p.folder = .ok (place, some .folder) ∧
      found = (enter place name, d.node? (enter place name)) := by
  obtain ⟨hjoin, hf⟩ := follow_of_locate h
  rw [Path.names_join hslash hne] at hf
  obtain ⟨place, hfolder, hfound⟩ := follow_append_singleton hf
  refine ⟨place, ?_, hfound⟩
  by_cases hp : p = ""
  · subst hp
    have hstart : d.start (Path.join "" name) = d.cwd := by
      simp [start, Path.join, Path.not_isAbsolute hslash]
    have hnames : Path.names "" = [] := by decide
    rw [hstart, hnames, follow] at hfolder
    obtain ⟨rfl, hnode⟩ := Prod.mk.inj (Except.ok.inj hfolder)
    refine locate_of_follow ⟨by decide, by decide, by decide⟩ ?_
    have hdot : Path.names (Path.folder "") = ["."] := by decide
    have hhere : d.start (Path.folder "") = d.cwd := by simp [start, Path.folder, Path.isAbsolute]
    have hshort : ¬ nameLimit < ".".utf8ByteSize := by decide
    rw [hdot, hhere, follow]
    simp [isFolderAt_iff.mpr hnode, hnode, hshort]
  · obtain ⟨rest, hrest⟩ := Path.join_eq_append (p := p) hslash
    rw [hrest] at hjoin hfolder
    have hstart : d.start (p ++ rest) = d.start p := by simp [start, Path.isAbsolute_append hp]
    rw [hstart] at hfolder
    have hself : p.folder = p := by simp [Path.folder, hp]
    rw [hself]
    refine locate_of_follow ⟨?_, hp, ?_⟩ hfolder
    · have hnul := hjoin.noNul
      rw [String.toList_append, List.any_append, Bool.or_eq_false_iff] at hnul
      exact hnul.1
    · have hshort := hjoin.short
      rw [String.utf8ByteSize_append] at hshort
      omega

theorem mem_insertSorted {s t : String} {ss : List String} :
    s ∈ insertSorted t ss ↔ s = t ∨ s ∈ ss := by
  induction ss with
  | nil => simp [insertSorted]
  | cons r rest ih =>
    simp only [insertSorted]
    split <;> simp [ih, or_left_comm]

@[simp] theorem mem_sortStrings {s : String} {ss : List String} : s ∈ sortStrings ss ↔ s ∈ ss := by
  induction ss with
  | nil => simp [sortStrings]
  | cons t rest ih =>
    rw [List.mem_cons, ← ih]
    exact mem_insertSorted

theorem mem_nodes_of_node? {d : Disk} {at_ : List String} {n : Node} (h : d.node? at_ = some n)
    (hne : at_ ≠ []) : (at_, n) ∈ d.nodes := by
  simp only [node?, hne, ↓reduceIte] at h
  obtain ⟨before, after, hl, -⟩ := List.lookup_eq_some_iff.mp h
  simp [hl]

theorem mem_list_of_locate_join {d : Disk} {p : Path} {name : String} {at_ : List String} {n : Node}
    (hslash : '/' ∉ name.toList) (hne : name ≠ "") (hdot : name ≠ ".") (hdots : name ≠ "..")
    (h : d.locate (p.join name) = .ok (at_, some n)) :
    ∃ names, d.list p.folder = .ok names ∧ name ∈ names := by
  obtain ⟨place, hfolder, hfound⟩ := locate_folder_of_join hslash hne h
  have henter : enter place name = place ++ [name] := by simp [enter, hdot, hdots]
  rw [henter] at hfound
  have hn : d.node? (place ++ [name]) = some n := (Prod.mk.inj hfound).2.symm
  refine ⟨_, by simp only [list, hfolder]; rfl, ?_⟩
  rw [mem_sortStrings, List.mem_filterMap]
  exact ⟨(place ++ [name], n), mem_nodes_of_node? hn (by simp), by simp⟩

end Rehearsal.Disk
