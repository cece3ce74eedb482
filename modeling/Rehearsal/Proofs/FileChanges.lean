import Rehearsal.Proofs.Ways

/-! # What file operations change

Each operation on files is told by the places that it changes. Writing and renaming touch one place or
two; making folders touches only places on the way where nothing stood.
-/
namespace Rehearsal.Disk

/-! ## The names of a parent -/

theorem Path.isName_of_mem_names {p : Path} {name : String} (h : name ∈ names p) : IsName name := by
  obtain ⟨piece, hpiece, rfl⟩ := List.mem_map.mp h
  obtain ⟨hmem, hne⟩ := List.mem_filter.mp hpiece
  exact ⟨by simpa using hne, by simpa using Text.not_mem_of_mem_splitOn hmem⟩

theorem Path.isName_of_mem_components {p : Path} {name : String} (h : name ∈ components p) :
    IsName name := by
  apply isName_of_mem_names (p := p)
  unfold components at h
  split at h
  · simp at h
  · rename_i first rest hnames
    rw [hnames]
    split at h
    · exact List.mem_cons.mpr ((List.mem_cons.mp h).imp id List.mem_of_mem_filter)
    · exact List.mem_of_mem_filter h

theorem Path.names_slash (p : Path) : names ("/" ++ p) = names p := by
  have h := Text.splitOn_append_cons '/' [] p.toList
  simp only [List.nil_append] at h
  simp [names, h, Text.splitOn]

theorem Path.names_joinWith {ns : List String} (h : ∀ name ∈ ns, IsName name) :
    names (Text.joinWith "/" ns) = ns := by
  induction ns with
  | nil => rfl
  | cons name ns ih =>
    obtain ⟨hne, hslash⟩ := h name List.mem_cons_self
    have hone : names name = [name] := by
      simp [names, Text.splitOn_of_not_mem hslash, hne]
    cases ns with
    | nil => exact hone
    | cons next ns =>
      have hsplit := Text.splitOn_append_cons '/' name.toList (Text.joinWith "/" (next :: ns)).toList
      have hrest := ih fun other ho => h other (List.mem_cons_of_mem _ ho)
      have happend : names (name ++ "/" ++ Text.joinWith "/" (next :: ns)) =
          names name ++ names (Text.joinWith "/" (next :: ns)) := by
        simp [names, hsplit]
      rw [Text.joinWith_cons_cons, happend, hone, hrest]
      rfl

theorem Path.isAbsolute_joinWith {ns : List String} (h : ∀ name ∈ ns, IsName name) :
    isAbsolute (Text.joinWith "/" ns) = false := by
  cases ns with
  | nil => rfl
  | cons name ns =>
    obtain ⟨hne, hslash⟩ := h name List.mem_cons_self
    cases ns with
    | nil => exact not_isAbsolute hslash
    | cons next ns =>
      rw [Text.joinWith_cons_cons, String.append_assoc, isAbsolute_append hne]
      exact not_isAbsolute hslash

/-- The parent of a path starts where the path does and has its components but the last. -/
theorem Path.of_parent? {p q : Path} (h : p.parent? = some q) :
    isAbsolute q = isAbsolute p ∧ names q = (components p).dropLast := by
  have hnames : ∀ name ∈ (components p).dropLast, IsName name :=
    fun name hn => isName_of_mem_components (List.dropLast_subset _ hn)
  unfold parent? at h
  split at h
  · cases h
  · rename_i last before hrev
    have hbefore : before.reverse = (components p).dropLast := by
      have hc := congrArg List.reverse hrev
      rw [List.reverse_reverse, List.reverse_cons] at hc
      rw [hc, List.dropLast_concat]
    rw [hbefore] at h
    by_cases hp : isAbsolute p = true
    · rw [if_pos hp] at h
      cases h
      exact ⟨by rw [hp, isAbsolute_append (by decide)]; rfl, by rw [names_slash, names_joinWith hnames]⟩
    · rw [if_neg hp, String.empty_append] at h
      cases h
      rw [Bool.not_eq_true] at hp
      exact ⟨by rw [hp, isAbsolute_joinWith hnames], names_joinWith hnames⟩

theorem lead_filter_dots (here names : List String) :
    lead here (names.filter (· ≠ ".")) = lead here names := by
  induction names generalizing here with
  | nil => rfl
  | cons name names ih =>
    by_cases h : name = "."
    · simpa [h, enter] using ih here
    · simpa [h] using ih (enter here name)

/-- The components of a path lead where its names do, step by step. -/
theorem lead_of_prefix_components {p : Path} {way : List String} (h : way <+: p.components)
    (here : List String) : ∃ way', way' <+: p.names ∧ lead here way' = lead here way := by
  have hfilter : ∀ {names way : List String}, way <+: names.filter (· ≠ ".") → ∀ here,
      ∃ way', way' <+: names ∧ lead here way' = lead here way := by
    rintro names way ⟨rest, hrest⟩ here
    obtain ⟨before, after, rfl, rfl, -⟩ := List.filter_eq_append_iff.mp hrest.symm
    exact ⟨before, List.prefix_append .., (lead_filter_dots here before).symm⟩
  unfold Path.components at h
  split at h
  · exact ⟨[], List.nil_prefix, by rw [List.prefix_nil.mp h]⟩
  · rename_i first rest hnames
    rw [hnames]
    split at h
    · cases way with
      | nil => exact ⟨[], List.nil_prefix, rfl⟩
      | cons name way =>
        obtain ⟨rfl, hway⟩ := List.cons_prefix_cons.mp h
        obtain ⟨way', hpre, hlead⟩ := hfilter hway (enter here name)
        exact ⟨name :: way', List.cons_prefix_cons.mpr ⟨rfl, hpre⟩, hlead⟩
    · exact hfilter h here

/-! ## What the operations change -/

@[simp] theorem put_cwd (d : Disk) (at_ : List String) (n : Node) : (d.put at_ n).cwd = d.cwd := rfl

@[simp] theorem remove_cwd (d : Disk) (at_ : List String) : (d.remove at_).cwd = d.cwd := rfl

@[simp] theorem node?_nil (d : Disk) : d.node? [] = some .folder := rfl

theorem lookup_filter {p : List String → Bool} {at_ : List String} (h : p at_ = true)
    (nodes : List (List String × Node)) :
    (nodes.filter fun node => p node.1).lookup at_ = nodes.lookup at_ := by
  induction nodes with
  | nil => rfl
  | cons node nodes ih =>
    obtain ⟨place, n⟩ := node
    by_cases hp : p place = true
    · rw [List.filter_cons_of_pos (by exact hp), List.lookup_cons, List.lookup_cons, ih]
    · have hat : (at_ == place) = false := by
        rw [beq_eq_false_iff_ne]
        rintro rfl
        exact hp h
      rw [List.filter_cons_of_neg (by exact hp), List.lookup_cons, hat]
      exact ih

theorem lookup_filter_of_ne {at_ other : List String} (h : other ≠ at_)
    (nodes : List (List String × Node)) :
    (nodes.filter (·.1 ≠ at_)).lookup other = nodes.lookup other :=
  lookup_filter (p := fun place => decide (place ≠ at_)) (by simpa using h) nodes

theorem node?_remove_of_ne {at_ other : List String} (h : other ≠ at_) (d : Disk) :
    (d.remove at_).node? other = d.node? other := by
  simp only [node?, remove, lookup_filter_of_ne h]

theorem node?_put_of_ne {at_ other : List String} (h : other ≠ at_) (d : Disk) (n : Node) :
    (d.put at_ n).node? other = d.node? other := by
  have hother : (other == at_) = false := by simpa using h
  simp only [node?, put, List.lookup_cons, hother, lookup_filter_of_ne h]

theorem node?_put {at_ : List String} (h : at_ ≠ []) (d : Disk) (n : Node) :
    (d.put at_ n).node? at_ = some n := by
  simp [node?, put, h]

theorem locate_eq_ok {d : Disk} {p : Path} {found : List String × Option Node}
    (h : d.locate p = .ok found) : found = (d.place p, d.node? (d.place p)) :=
  (follow_eq_ok (follow_of_locate h).2).1

theorem write_eq_ok {d d' : Disk} {p : Path} {content : Bytes} (h : d.write p content = .ok d') :
    d.node? (d.place p) ≠ some .folder ∧ d' = d.put (d.place p) (.file content) := by
  unfold write at h
  cases hl : d.locate p with
  | error fault => rw [hl] at h; cases h
  | ok found =>
    obtain rfl := locate_eq_ok hl
    rw [hl] at h
    cases hn : d.node? (d.place p) with
    | none =>
      simp only [hn, bind, Except.bind] at h
      split at h
      · cases h
      · exact ⟨by simp, (Except.ok.inj h).symm⟩
    | some node =>
      cases node with
      | folder => simp [hn, bind, Except.bind] at h
      | file old =>
        simp only [hn, bind, Except.bind, Except.ok.injEq] at h
        exact ⟨by simp, h.symm⟩

theorem makeFolder_eq_ok {d d' : Disk} {p : Path} (h : d.makeFolder p = .ok d') :
    d.node? (d.place p) = none ∧ d' = d.put (d.place p) .folder := by
  unfold makeFolder at h
  cases hl : d.locate p with
  | error fault => rw [hl] at h; cases h
  | ok found =>
    obtain rfl := locate_eq_ok hl
    rw [hl] at h
    cases hn : d.node? (d.place p) with
    | none =>
      simp only [hn, bind, Except.bind, Except.ok.injEq] at h
      exact ⟨rfl, h.symm⟩
    | some node => simp [hn, bind, Except.bind] at h

theorem rename_eq_ok {d d' : Disk} {source target : Path} (h : d.rename source target = .ok d') :
    ∃ content, d.node? (d.place source) = some (.file content) ∧
      d.locate target = .ok (d.place target, d.node? (d.place target)) ∧
      d.node? (d.place target) ≠ some .folder ∧
      d' = (d.remove (d.place source)).put (d.place target) (.file content) := by
  unfold rename at h
  cases hs : d.locate source with
  | error fault => rw [hs] at h; cases h
  | ok moved =>
    obtain rfl := locate_eq_ok hs
    cases ht : d.locate target with
    | error fault => rw [hs, ht] at h; cases h
    | ok found =>
      obtain rfl := locate_eq_ok ht
      rw [hs, ht] at h
      simp only [bind, Except.bind] at h
      split at h
      · cases h
      · cases h
      · cases h
      · rename_i found content hmoved hnot
        exact ⟨content, hmoved, rfl, hnot, (Except.ok.inj h).symm⟩

/-- Folders are made on the way to a path, where nothing stood. -/
structure Housed (p : Path) (d d' : Disk) : Prop where
  cwd : d'.cwd = d.cwd
  node : ∀ at_, d'.node? at_ = d.node? at_ ∨
    d.node? at_ = none ∧ d'.node? at_ = some .folder ∧
      ∃ way, way <+: p.names ∧ at_ = lead (d.start p) way

theorem Housed.refl (p : Path) (d : Disk) : Housed p d d := ⟨rfl, fun _ => .inl rfl⟩

theorem Housed.trans {p : Path} {d d' d'' : Disk} (h : Housed p d d') (h' : Housed p d' d'') :
    Housed p d d'' := by
  refine ⟨h'.cwd.trans h.cwd, fun at_ => ?_⟩
  rcases h.node at_ with hsame | ⟨hnone, hfolder, hway⟩
  · rcases h'.node at_ with hsame' | ⟨hnone', hfolder', hway'⟩
    · exact .inl (hsame'.trans hsame)
    · exact .inr ⟨by rw [← hsame, hnone'], hfolder', by rwa [start_congr h.cwd] at hway'⟩
  · rcases h'.node at_ with hsame' | ⟨hnone', -, -⟩
    · exact .inr ⟨hnone, by rw [hsame', hfolder], hway⟩
    · rw [hfolder] at hnone'
      cases hnone'

theorem Housed.of_makeFolder {d d' : Disk} {p : Path} (h : d.makeFolder p = .ok d') :
    Housed p d d' := by
  obtain ⟨hnone, rfl⟩ := makeFolder_eq_ok h
  refine ⟨rfl, fun at_ => ?_⟩
  by_cases hat : at_ = d.place p
  · have hne : d.place p ≠ [] := by
      intro hnil
      rw [hnil, node?_nil] at hnone
      cases hnone
    subst hat
    exact .inr ⟨hnone, node?_put hne d .folder, p.names, List.prefix_rfl, rfl⟩
  · exact .inl (node?_put_of_ne hat d .folder)

theorem Housed.of_parent {d d' : Disk} {p q : Path} (hq : p.parent? = some q) (h : Housed q d d') :
    Housed p d d' := by
  obtain ⟨habs, hnames⟩ := Path.of_parent? hq
  have hstart : d.start q = d.start p := by simp [start, habs]
  refine ⟨h.cwd, fun at_ => ?_⟩
  rcases h.node at_ with hsame | ⟨hnone, hfolder, way, hway, rfl⟩
  · exact .inl hsame
  · rw [hnames] at hway
    obtain ⟨way', hway', hlead⟩ :=
      lead_of_prefix_components (hway.trans (List.dropLast_prefix _)) (d.start q)
    exact .inr ⟨hnone, hfolder, way', hway', by rw [← hlead, hstart]⟩

theorem Housed.of_makeFoldersWithin {depth : Nat} {d d' : Disk} {p : Path}
    (h : makeFoldersWithin depth d p = .ok d') : Housed p d d' := by
  induction depth generalizing d d' p with
  | zero => exact .of_makeFolder h
  | succ depth ih =>
    rw [makeFoldersWithin] at h
    split at h
    · cases h
      exact .refl p d
    · split at h
      · cases h
        exact .of_makeFolder ‹_›
      · split at h
        · cases h
        · rename_i q hq
          split at h
          · cases h
          · rename_i between hbetween
            have hparent := (ih hbetween).of_parent hq
            split at h
            · cases h
              exact hparent.trans (.of_makeFolder ‹_›)
            · split at h
              · cases h
                exact hparent
              · cases h
      · split at h
        · cases h
          exact .refl p d
        · cases h

theorem Housed.of_attempt (d : Disk) (p : Path) : Housed p d ((d.makeFolder p).toOption.getD d) := by
  cases h : d.makeFolder p with
  | error fault => exact .refl p d
  | ok d' => exact .of_makeFolder h

/-- An attempt, too, makes folders only, and on the way only. -/
theorem Housed.of_leaveFoldersWithin (depth : Nat) (d : Disk) (p : Path) :
    Housed p d (leaveFoldersWithin depth d p) := by
  induction depth generalizing p with
  | zero => exact .of_attempt d p
  | succ depth ih =>
    rw [leaveFoldersWithin]
    split
    · exact .refl p d
    · split
      · exact .of_makeFolder ‹_›
      · split
        · exact .refl p d
        · rename_i q hq
          split
          · exact (ih q).of_parent hq
          · rename_i between hbetween
            exact ((Housed.of_makeFoldersWithin hbetween).of_parent hq).trans (.of_attempt between p)
      · exact .refl p d

theorem Housed.of_leaveFolders (d : Disk) (p : Path) : Housed p d (d.leaveFolders p) :=
  .of_leaveFoldersWithin _ d p

theorem Housed.of_makeFolders {d d' : Disk} {p : Path} (h : d.makeFolders p = .ok d') :
    Housed p d d' :=
  .of_makeFoldersWithin h

end Rehearsal.Disk
