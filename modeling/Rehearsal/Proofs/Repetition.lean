import Rehearsal.Proofs.EndlessSearch

/-! # Repetitions in a search

How a search goes on depends on little: on the scenario, on what is on the path, and on what is done
with, missing scenarios aside. Of a source with finitely many scenarios there are only so many such
situations along a path, on which all that is remembered only grows.
-/
namespace Rehearsal.Preflight

variable {load : Load} {root : Scenario}

/-- The same is done with, missing scenarios aside. -/
def SearchAlike (load : Load) (s t : Search) : Prop :=
  ∀ id, (load id).1 ≠ .ok none → (id ∈ s.finished ↔ id ∈ t.finished)

theorem SearchAlike.symm {s t : Search} (h : SearchAlike load s t) : SearchAlike load t s :=
  fun id hid => (h id hid).symm

theorem SearchAlike.trans {s t u : Search} (h : SearchAlike load s t) (h' : SearchAlike load t u) :
    SearchAlike load s u :=
  fun id hid => (h id hid).trans (h' id hid)

theorem SearchAlike.finish {s t : Search} (h : SearchAlike load s t) (id : String) :
    SearchAlike load (s.finish id) (t.finish id) := by
  intro a ha
  rw [Search.finished_finish, Search.finished_finish, List.mem_cons, List.mem_cons, h a ha]

/-- The same is on both paths, and the same scenario is last. -/
structure PathAlike (p q : List String) : Prop where
  same : ∀ id, id ∈ p ↔ id ∈ q
  last : p.getLastD "" = q.getLastD ""

theorem PathAlike.append {p q : List String} (h : PathAlike p q) (id : String) :
    PathAlike (p ++ [id]) (q ++ [id]) where
  same := by
    intro a
    rw [List.mem_append, List.mem_append, h.same a]
  last := by simp [List.getLastD_eq_getLast?]

inductive LookAlike (load : Load) : Look → Look → Prop
  | refused {e e' : Failure} {s t : Search} : LookAlike load (.refused e s) (.refused e' t)
  | passed {s t : Search} (h : SearchAlike load s t) : LookAlike load (.passed s) (.passed t)
  | entered {scenario : Scenario} {s t : Search} (h : SearchAlike load s t) :
    LookAlike load (.entered scenario s) (.entered scenario t)

theorem look_absent {path : List String} {s : Search} {next : String} (hoff : next ∉ path)
    (hload : (load next).1 = .ok none) :
    ∃ t, look load path s next = .passed t ∧ SearchAlike load s t := by
  have hl := looked load path s next
  generalize hlook : look load path s next = l at hl
  cases hl with
  | circle onPath => exact absurd onPath hoff
  | known offPath done => exact ⟨s, rfl, fun _ _ => Iff.rfl⟩
  | failed offPath open_ answer => simp [answer] at hload
  | absent offPath open_ answer =>
    refine ⟨_, rfl, ?_⟩
    intro id hid
    have hne : id ≠ next := by
      rintro rfl
      exact hid hload
    simp [hne]
  | entered offPath open_ answer => simp [answer] at hload

theorem look_alike {p q : List String} {s t : Search} (hpath : PathAlike p q)
    (hs : SearchAlike load s t) (next : String) :
    LookAlike load (look load p s next) (look load q t next) := by
  by_cases hon : next ∈ p
  · have hon' := (hpath.same next).mp hon
    simp only [look, List.contains_iff_mem, hon, hon', ↓reduceIte]
    exact .refused
  have hoff : next ∉ q := fun h => hon ((hpath.same next).mpr h)
  by_cases hnone : (load next).1 = .ok none
  · obtain ⟨s', hs', halike⟩ := look_absent hon hnone
    obtain ⟨t', ht', halike'⟩ := look_absent hoff hnone
    rw [hs', ht']
    exact .passed (halike.symm.trans (hs.trans halike'))
  by_cases hdone : next ∈ s.finished
  · have hdone' := (hs next hnone).mp hdone
    simp only [look, List.contains_iff_mem, hon, hoff, hdone, hdone', ↓reduceIte]
    exact .passed hs
  have hopen : next ∉ t.finished := fun h => hdone ((hs next hnone).mpr h)
  simp only [look, List.contains_iff_mem, hon, hoff, hdone, hopen, ↓reduceIte]
  rcases hload : load next with ⟨e | found, lines⟩
  · exact .refused
  · cases found with
    | none => exact absurd (by rw [hload]) hnone
    | some scenario => exact .entered hs

inductive Agree (load : Load) : Verdict × Search → Verdict × Search → Prop
  | clear {s t : Search} (h : SearchAlike load s t) : Agree load (.clear, s) (.clear, t)
  | refused {e e' : Failure} {s t : Search} : Agree load (.refused e, s) (.refused e', t)
  | unfinished {s t : Search} : Agree load (.unfinished, s) (.unfinished, t)

theorem Agree.unfinished_iff {r r' : Verdict × Search} (h : Agree load r r') :
    r.1 = .unfinished ↔ r'.1 = .unfinished := by
  cases h with
  | clear h => simp
  | refused => simp
  | unfinished => simp

theorem scan_alike {deeper : List String → Search → List String → Verdict × Search}
    (hdeep : ∀ {p q s t}, PathAlike p q → SearchAlike load s t →
      ∀ refs, Agree load (deeper p s refs) (deeper q t refs))
    {p q : List String} {s t : Search} (hpath : PathAlike p q) (hs : SearchAlike load s t)
    (refs : List String) : Agree load (scan load deeper p s refs) (scan load deeper q t refs) := by
  induction refs generalizing s t with
  | nil =>
    rw [scan, scan, hpath.last]
    exact .clear (hs.finish _)
  | cons next rest ih =>
    have hl := look_alike hpath hs next
    generalize hlook : look load p s next = l at hl
    generalize hlook' : look load q t next = l' at hl
    cases hl with
    | refused =>
      rw [scan_refused hlook, scan_refused hlook']
      exact .refused
    | passed h =>
      rw [scan_passed hlook, scan_passed hlook']
      exact ih h
    | @entered scenario s' t' h =>
      rw [scan_entered hlook, scan_entered hlook']
      have hd := hdeep (hpath.append scenario.id) h scenario.references
      generalize deeper (p ++ [scenario.id]) s' scenario.references = r at hd ⊢
      generalize deeper (q ++ [scenario.id]) t' scenario.references = r' at hd ⊢
      cases hd with
      | clear h => exact ih h
      | refused => exact .refused
      | unfinished => exact .unfinished

theorem visit_alike (d : Nat) {p q : List String} {s t : Search} (hpath : PathAlike p q)
    (hs : SearchAlike load s t) (refs : List String) :
    Agree load (visit load d p s refs) (visit load d q t refs) := by
  induction d generalizing p q s t refs with
  | zero => exact scan_alike (fun _ _ _ => .unfinished) hpath hs refs
  | succ d ih => exact scan_alike (fun hpath hs refs => ih hpath hs refs) hpath hs refs

namespace Stand

variable {X Y : Stand}

structure Alike (load : Load) (X Y : Stand) : Prop where
  scenario : X.scenario = Y.scenario
  path : PathAlike X.path Y.path
  search : SearchAlike load X.search Y.search

/-- What leads back to where the search stood before leads there again and again. -/
theorem unfinished_of_repeat (hXY : Relation.TransGen (Leads load) X Y) (halike : Alike load X Y)
    (d : Nat) : (X.visit load d).1 = .unfinished := by
  induction d using Nat.strong_induction_on with
  | _ d ih =>
    -- Were it to end from `X`, it would end from `Y` at a smaller depth, and there from `X` as well.
    by_contra hend
    obtain ⟨e, he, hY⟩ := finished_of_transGen hXY hend
    have hsame := visit_alike e halike.path halike.search X.scenario.references
    have hX : (X.visit load e).1 ≠ .unfinished := by
      intro hun
      refine hY ?_
      unfold Stand.visit at hun ⊢
      rw [← halike.scenario]
      exact hsame.unfinished_iff.mp hun
    exact hX (ih e he)

end Stand

/-- The identifiers that scenarios give themselves are among these. -/
structure GoBy (load : Load) (root : Scenario) (names : Finset String) : Prop where
  root : root.id ∈ names
  loaded : ∀ {id s}, (load id).1 = .ok (some s) → s.id ∈ names

/-- Only names of scenarios are done with, missing ones aside. -/
def Kept (load : Load) (names : Finset String) (s : Search) : Prop :=
  ∀ id ∈ s.finished, id ∈ names ∨ (load id).1 = .ok none

variable {names : Finset String}

theorem Kept.look {path : List String} {s : Search} (h : Kept load names s) {next : String} {l : Look}
    (hlook : look load path s next = l) : Kept load names l.search := by
  have hl := looked load path s next
  rw [hlook] at hl
  cases hl with
  | circle onPath => exact h
  | known offPath done => exact h
  | failed offPath open_ answer => exact h
  | absent offPath open_ answer =>
    intro id hid
    rcases List.mem_cons.mp hid with rfl | hid
    · exact .inr (by rw [answer])
    · exact h id hid
  | entered offPath open_ answer => exact h

theorem GoBy.look (hnames : GoBy load root names) {path : List String} {s t : Search}
    {next : String} {scenario : Scenario} (hlook : look load path s next = .entered scenario t) :
    scenario.id ∈ names := by
  have hl := looked load path s next
  rw [hlook] at hl
  cases hl with
  | entered offPath open_ answer => exact hnames.loaded (by rw [answer])

theorem subset_append {path : List String} (hpath : ∀ id ∈ path, id ∈ names) {id : String}
    (hid : id ∈ names) : ∀ a ∈ path ++ [id], a ∈ names := by
  intro a ha
  rcases List.mem_append.mp ha with ha | ha
  · exact hpath a ha
  · rw [List.mem_singleton.mp ha]
    exact hid

theorem scan_kept (hnames : GoBy load root names)
    {deeper : List String → Search → List String → Verdict × Search}
    (hdeep : ∀ {path s}, path ≠ [] → (∀ id ∈ path, id ∈ names) → Kept load names s →
      ∀ refs, Kept load names (deeper path s refs).2)
    {path : List String} {s : Search} (hne : path ≠ []) (hpath : ∀ id ∈ path, id ∈ names)
    (hs : Kept load names s) (refs : List String) :
    Kept load names (scan load deeper path s refs).2 := by
  induction refs generalizing s with
  | nil =>
    have hlast : path.getLastD "" ∈ path := by
      rw [List.getLastD_eq_getLast?, List.getLast?_eq_some_getLast hne]
      exact List.getLast_mem hne
    intro id hid
    rcases List.mem_cons.mp hid with rfl | hid
    · exact .inl (hpath _ hlast)
    · exact hs id hid
  | cons next rest ih =>
    cases hlook : look load path s next with
    | refused e t =>
      rw [scan_refused hlook]
      exact hs.look hlook
    | passed t =>
      rw [scan_passed hlook]
      exact ih (hs.look hlook)
    | entered scenario t =>
      have hne' : path ++ [scenario.id] ≠ [] := by simp
      have hbelow := hdeep hne' (subset_append hpath (hnames.look hlook)) (hs.look hlook)
        scenario.references
      rw [scan_entered hlook]
      rcases onward_cases (deeper (path ++ [scenario.id]) t scenario.references)
        (fun t => scan load deeper path t rest) with ⟨u, hu, hon⟩ | ⟨-, hon⟩
      · rw [hon]
        refine ih ?_
        rw [Look.search, hu] at hbelow
        exact hbelow
      · rw [hon]
        exact hbelow

theorem visit_kept (hnames : GoBy load root names) (d : Nat) {path : List String} {s : Search}
    (hne : path ≠ []) (hpath : ∀ id ∈ path, id ∈ names) (hs : Kept load names s)
    (refs : List String) : Kept load names (visit load d path s refs).2 := by
  induction d generalizing path s refs with
  | zero => exact scan_kept hnames (fun _ _ hs _ => hs) hne hpath hs refs
  | succ d ih =>
    exact scan_kept hnames (fun hne hpath hs refs => ih hne hpath hs refs) hne hpath hs refs

end Rehearsal.Preflight
