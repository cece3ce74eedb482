import Mathlib.Data.Finset.Image
import Rehearsal.Proofs.Repetition

/-! # The limit of depth

A search that goes deeper than the limit for its source never comes to an end, whatever names the
scenarios go by, and scenarios that were asked for lead back to themselves.
-/
namespace Rehearsal.Preflight

variable {load : Load} {root : Scenario} {names : Finset String}

/-- A long chain comes by equal values. -/
theorem exists_repeat {α β : Type} [DecidableEq β] {R : α → α → Prop} {l : List α}
    (hchain : l.IsChain R) (f : α → β) {values : Finset β} (hf : ∀ x ∈ l, f x ∈ values)
    (hlong : values.card < l.length) :
    ∃ x ∈ l, ∃ y ∈ l, Relation.TransGen R x y ∧ f x = f y := by
  by_contra hnone
  have hstep : l.IsChain (Relation.TransGen R) := hchain.imp fun _ _ => .single
  have hnodup : (l.map f).Nodup := by
    refine List.pairwise_map.mpr ((List.isChain_iff_pairwise.mp hstep).imp_of_mem ?_)
    intro x y hx hy hxy heq
    exact hnone ⟨x, hx, y, hy, hxy, heq⟩
  have hsub : (l.map f).toFinset ⊆ values := by
    intro b hb
    obtain ⟨x, hx, rfl⟩ := List.mem_map.mp (List.mem_toFinset.mp hb)
    exact hf x hx
  have hcard := Finset.card_le_card hsub
  rw [List.toFinset_card_of_nodup hnodup, List.length_map] at hcard
  omega

theorem Enters.kept {d : Nat} (hnames : GoBy load root names) {path : List String} {s t : Search}
    {refs : List String} {key : String} {scenario : Scenario}
    (h : Enters load (visit load d) path s refs key scenario t)
    (hpath : ∀ id ∈ path, id ∈ names) (hs : Kept load names s) : Kept load names t := by
  induction h with
  | here h => exact hs.look h
  | passing h _ ih => exact ih (hs.look h)
  | @clearing s t u v next key rest other scenario h clear _ ih =>
    have hne : path ++ [other.id] ≠ [] := by simp
    have hbelow := visit_kept hnames d hne (subset_append hpath (hnames.look h)) (hs.look h)
      other.references
    rw [Look.search, clear] at hbelow
    exact ih hbelow

namespace Stand

variable {X Y : Stand}

/-- What holds wherever a search stands. -/
structure Proper (load : Load) (root : Scenario) (names : Finset String) (X : Stand) : Prop where
  known : scenarioAt? load root X.key = some X.scenario
  rooted : root.id ∈ X.path
  last : X.path.getLast? = some X.scenario.id
  path : ∀ id ∈ X.path, id ∈ names
  finished : Kept load names X.search

theorem proper_start (hnames : GoBy load root names) : Proper load root names (.start root) where
  known := scenarioAt?_root
  rooted := List.mem_singleton_self _
  last := rfl
  path := by
    intro id hid
    rw [List.mem_singleton.mp hid]
    exact hnames.root
  finished := by
    intro id hid
    cases hid

theorem Leads.proper (hnames : GoBy load root names) (h : Leads load X Y)
    (hX : Proper load root names X) : Proper load root names Y := by
  obtain ⟨-, hoff, hload, -, -⟩ := h.entered
  obtain ⟨hpath, d, henter⟩ := h
  have hne : Y.key ≠ root.id := by
    intro heq
    rw [heq] at hoff
    exact hoff hX.rooted
  refine ⟨scenarioAt?_of_load hne hload, ?_, ?_, ?_, henter.kept hnames hX.path hX.finished⟩
  · rw [hpath]
    exact List.mem_append_left _ hX.rooted
  · rw [hpath, List.getLast?_append, List.getLast?_singleton, Option.some_or]
  · rw [hpath]
    exact subset_append hX.path (hnames.loaded hload)

theorem proper_of_transGen (hnames : GoBy load root names)
    (h : Relation.TransGen (Leads load) X Y) (hX : Proper load root names X) :
    Proper load root names Y := by
  induction h with
  | single hXY => exact hXY.proper hnames hX
  | tail _ hYZ ih => exact hYZ.proper hnames ih

theorem grows_of_transGen (h : Relation.TransGen (Leads load) X Y) :
    X.path ⊆ Y.path ∧ Grows X.search Y.search := by
  induction h with
  | single hXY =>
    rw [hXY.1]
    exact ⟨List.subset_append_left .., hXY.entered.2.2.2.2⟩
  | tail _ hYZ ih =>
    rw [hYZ.1]
    exact ⟨List.Subset.trans ih.1 (List.subset_append_left ..), ih.2.trans hYZ.entered.2.2.2.2⟩

/-- How many of the names are on the path, and how many are done with. -/
def measure (names : Finset String) (X : Stand) : Nat :=
  (names.filter (· ∈ X.path)).card + (names.filter (· ∈ X.search.finished)).card

theorem measure_le (names : Finset String) (X : Stand) : X.measure names ≤ 2 * names.card := by
  have hpath := Finset.card_filter_le names (· ∈ X.path)
  have hdone := Finset.card_filter_le names (· ∈ X.search.finished)
  unfold measure
  omega

/-- Where nothing is added along a path, the search stands as it stood before. -/
theorem alike_of_measure (hX : Proper load root names X) (hY : Proper load root names Y)
    (h : Relation.TransGen (Leads load) X Y) (hkey : X.key = Y.key)
    (hmeasure : X.measure names = Y.measure names) : Alike load X Y := by
  obtain ⟨hpath, hgrows⟩ := grows_of_transGen h
  have hsub : names.filter (· ∈ X.path) ⊆ names.filter (· ∈ Y.path) :=
    Finset.monotone_filter_right names fun _ _ ha => hpath ha
  have hsub' : names.filter (· ∈ X.search.finished) ⊆ names.filter (· ∈ Y.search.finished) :=
    Finset.monotone_filter_right names fun _ _ ha => hgrows.finished ha
  have hle := Finset.card_le_card hsub
  have hle' := Finset.card_le_card hsub'
  unfold measure at hmeasure
  have heq := Finset.eq_of_subset_of_card_le hsub (by omega)
  have heq' := Finset.eq_of_subset_of_card_le hsub' (by omega)
  have hscenario : X.scenario = Y.scenario := by
    have hknown := hX.known
    rw [hkey, hY.known] at hknown
    exact (Option.some.inj hknown).symm
  refine ⟨hscenario, ⟨?_, ?_⟩, ?_⟩
  · intro id
    refine ⟨fun hid => hpath hid, ?_⟩
    intro hid
    have hmem : id ∈ names.filter (· ∈ Y.path) := Finset.mem_filter.mpr ⟨hY.path id hid, hid⟩
    rw [← heq] at hmem
    exact (Finset.mem_filter.mp hmem).2
  · rw [List.getLastD_eq_getLast?, List.getLastD_eq_getLast?, hX.last, hY.last, hscenario]
  · intro id hload
    refine ⟨fun hid => hgrows.finished hid, ?_⟩
    intro hid
    have hname : id ∈ names := (hY.finished id hid).resolve_right hload
    have hmem : id ∈ names.filter (· ∈ Y.search.finished) := Finset.mem_filter.mpr ⟨hname, hid⟩
    rw [← heq'] at hmem
    exact (Finset.mem_filter.mp hmem).2

theorem refers_of_leads (hX : Proper load root names X) (h : Leads load X Y) :
    Refers load root X.key Y.key :=
  ⟨X.scenario, hX.known, h.entered.1⟩

end Stand

def nameAt? (load : Load) (id : String) : Option String :=
  match (load id).1 with
  | .ok found => found.map (·.id)
  | .error _ => none

def namesOf (load : Load) (root : Scenario) (ids : List String) : Finset String :=
  insert root.id (ids.filterMap (nameAt? load)).toFinset

theorem card_namesOf (load : Load) (root : Scenario) (ids : List String) :
    (namesOf load root ids).card ≤ ids.length + 1 := by
  have hfilter := List.length_filterMap_le (nameAt? load) ids
  have hcard := List.toFinset_card_le (ids.filterMap (nameAt? load))
  have hinsert := Finset.card_insert_le root.id (ids.filterMap (nameAt? load)).toFinset
  unfold namesOf
  omega

theorem goBy_namesOf {ids : List String}
    (listed : ∀ {id s}, (load id).1 = .ok (some s) → id ∈ ids) :
    GoBy load root (namesOf load root ids) where
  root := Finset.mem_insert_self ..
  loaded := by
    intro id s h
    have hname : nameAt? load id = some s.id := by simp [nameAt?, h]
    refine Finset.mem_insert_of_mem (List.mem_toFinset.mpr ?_)
    exact List.mem_filterMap.mpr ⟨id, listed h, hname⟩

section Listed

variable {ids : List String} (listed : ∀ {id s}, (load id).1 = .ok (some s) → id ∈ ids)

include listed

/-- All that a search has stood before on its way down, and in what order. -/
theorem exists_chain {d : Nat} (h : (search d load root).1 = .unfinished) :
    ∃ l : List Stand, l.length = d + 1 ∧ l.IsChain (Stand.Leads load) ∧
      ∀ X ∈ l, Relation.TransGen (Stand.Leads load) (.start root) X ∧
        Stand.Proper load root (namesOf load root ids) X ∧ X.key ∈ ids ∧
        X.key ∈ (search d load root).2.asked := by
  obtain ⟨l, hlength, hchain, hgrows⟩ := Stand.chain_of_unfinished (X := .start root) h
  have hstep : (Stand.start root :: l).IsChain (Relation.TransGen (Stand.Leads load)) :=
    hchain.imp fun _ _ => .single
  refine ⟨l, hlength, hchain.tail, ?_⟩
  intro X hX
  have hreach := List.rel_of_pairwise_cons (List.isChain_iff_pairwise.mp hstep) hX
  have hproper := Stand.proper_of_transGen (goBy_namesOf listed) hreach
    (Stand.proper_start (goBy_namesOf listed))
  obtain ⟨Y, -, hYX⟩ := Relation.TransGen.tail'_iff.mp hreach
  obtain ⟨-, -, hload, hasked, -⟩ := hYX.entered
  exact ⟨hreach, hproper, listed hload, (hgrows X hX).asked hasked⟩

/-- A search that goes deeper than the limit never comes to its end. -/
theorem endless_of_unfinished
    (h : (search (depthLimit ids.length) load root).1 = .unfinished) (d : Nat) :
    (search d load root).1 = .unfinished := by
  obtain ⟨l, hlength, hchain, hl⟩ := exists_chain listed h
  have hcard := card_namesOf load root ids
  have hmem : ∀ X ∈ l, (X.key, X.measure (namesOf load root ids)) ∈
      ids.toFinset ×ˢ Finset.range (2 * ids.length + 3) := by
    intro X hX
    obtain ⟨-, -, hid, -⟩ := hl X hX
    have hmeasure := Stand.measure_le (namesOf load root ids) X
    refine Finset.mem_product.mpr ⟨List.mem_toFinset.mpr hid, Finset.mem_range.mpr ?_⟩
    show X.measure (namesOf load root ids) < 2 * ids.length + 3
    omega
  have hlong : (ids.toFinset ×ˢ Finset.range (2 * ids.length + 3)).card < l.length := by
    have hids := List.toFinset_card_le ids
    rw [Finset.card_product, Finset.card_range, hlength]
    calc
      ids.toFinset.card * (2 * ids.length + 3) ≤ (ids.length + 1) * (2 * ids.length + 4) :=
        Nat.mul_le_mul (by omega) (by omega)
      _ < depthLimit ids.length + 1 := Nat.lt_succ_self _
  -- So long a chain has two stands of the same identifier between which nothing was added.
  obtain ⟨X, hX, Y, hY, hXY, heq⟩ := exists_repeat hchain
    (fun X => (X.key, X.measure (namesOf load root ids))) hmem hlong
  obtain ⟨hkey, hmeasure⟩ := Prod.mk.inj heq
  have halike := Stand.alike_of_measure (hl X hX).2.1 (hl Y hY).2.1 hXY hkey hmeasure
  by_contra hend
  obtain ⟨e, -, he⟩ := Stand.finished_of_transGen (X := .start root) (hl X hX).1 hend
  exact he (Stand.unfinished_of_repeat hXY halike e)

/-- The limit is far enough: it changes nothing about a search that comes to its end at all. -/
theorem search_depthLimit {d : Nat} (h : (search d load root).1 ≠ .unfinished) :
    search (depthLimit ids.length) load root = search d load root := by
  refine visit_eq_of_finished ?_ h
  intro hun
  exact h (endless_of_unfinished listed hun d)

/-- A search that comes to no end has asked for a scenario that leads back to itself. -/
theorem loop_of_unfinished {d : Nat} (hd : ids.length ≤ d)
    (h : (search d load root).1 = .unfinished) :
    ∃ id, Relation.TransGen
      (fun a b => Refers load root a b ∧ b ∈ (search d load root).2.asked) id id := by
  obtain ⟨l, hlength, hchain, hl⟩ := exists_chain listed h
  have hmem : ∀ X ∈ l, X.key ∈ ids.toFinset := by
    intro X hX
    exact List.mem_toFinset.mpr (hl X hX).2.2.1
  have hlong : ids.toFinset.card < l.length := by
    have hids := List.toFinset_card_le ids
    omega
  have hsteps : l.IsChain fun X Y =>
      Refers load root X.key Y.key ∧ Y.key ∈ (search d load root).2.asked := by
    refine hchain.imp_of_mem_imp ?_
    intro X Y hX hY hXY
    exact ⟨Stand.refers_of_leads (hl X hX).2.1 hXY, (hl Y hY).2.2.2⟩
  obtain ⟨X, -, Y, -, hXY, hkey⟩ := exists_repeat hsteps (·.key) hmem hlong
  refine ⟨X.key, ?_⟩
  have hlift : Relation.TransGen
      (fun a b => Refers load root a b ∧ b ∈ (search d load root).2.asked) X.key Y.key := by
    refine hXY.lift Stand.key ?_
    intro X Y h
    exact h
  rw [← hkey] at hlift
  exact hlift

end Listed

end Rehearsal.Preflight
