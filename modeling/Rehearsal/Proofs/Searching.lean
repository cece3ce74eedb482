import Rehearsal.Run.Preflight

/-! # How a search goes on

What a look at a reference can come to, and that a limit of depth makes no difference to a search that
does not reach it.
-/
namespace Rehearsal.Preflight

variable {load : Load}

inductive Looked (load : Load) (path : List String) (s : Search) (next : String) : Look → Prop
  | circle (onPath : next ∈ path) :
    Looked load path s next (.refused (.cyclicReference (path ++ [next])) s)
  | known (offPath : next ∉ path) (done : next ∈ s.finished) : Looked load path s next (.passed s)
  | failed (offPath : next ∉ path) (open_ : next ∉ s.finished) {e : Failure} {lines : List LogLine}
    (answer : load next = (.error e, lines)) :
    Looked load path s next (.refused e ((s.ask next).say lines))
  | absent (offPath : next ∉ path) (open_ : next ∉ s.finished) {lines : List LogLine}
    (answer : load next = (.ok none, lines)) :
    Looked load path s next (.passed ((((s.ask next).say lines).say [missing next]).finish next))
  | entered (offPath : next ∉ path) (open_ : next ∉ s.finished) {scenario : Scenario}
    {lines : List LogLine} (answer : load next = (.ok (some scenario), lines)) :
    Looked load path s next (.entered scenario (((s.ask next).say lines).say [found scenario]))

theorem looked (load : Load) (path : List String) (s : Search) (next : String) :
    Looked load path s next (look load path s next) := by
  by_cases hpath : next ∈ path
  · have hl : look load path s next = .refused (.cyclicReference (path ++ [next])) s := by
      simp [look, hpath]
    rw [hl]
    exact .circle hpath
  by_cases hdone : next ∈ s.finished
  · have hl : look load path s next = .passed s := by simp [look, hpath, hdone]
    rw [hl]
    exact .known hpath hdone
  rcases hload : load next with ⟨e | found, lines⟩
  · have hl : look load path s next = .refused e ((s.ask next).say lines) := by
      simp [look, hpath, hdone, hload]
    rw [hl]
    exact .failed hpath hdone hload
  cases found with
  | none =>
    have hl : look load path s next =
        .passed ((((s.ask next).say lines).say [missing next]).finish next) := by
      simp [look, hpath, hdone, hload]
    rw [hl]
    exact .absent hpath hdone hload
  | some scenario =>
    have hl : look load path s next =
        .entered scenario (((s.ask next).say lines).say [found scenario]) := by
      simp [look, hpath, hdone, hload]
    rw [hl]
    exact .entered hpath hdone hload

theorem onward_cases (r : Verdict × Search) (next : Search → Verdict × Search) :
    (∃ t, r = (.clear, t) ∧ onward r next = next t) ∨ (r.1 ≠ .clear ∧ onward r next = r) := by
  obtain ⟨v, t⟩ := r
  cases v with
  | clear => exact .inl ⟨t, rfl, rfl⟩
  | refused e => exact .inr ⟨by simp, rfl⟩
  | unfinished => exact .inr ⟨by simp, rfl⟩

section Stability

variable {deeper deeper' : List String → Search → List String → Verdict × Search}

theorem scan_stable
    (h : ∀ path s refs, (deeper path s refs).1 ≠ .unfinished →
      deeper' path s refs = deeper path s refs)
    {path : List String} {s : Search} {refs : List String}
    (hend : (scan load deeper path s refs).1 ≠ .unfinished) :
    scan load deeper' path s refs = scan load deeper path s refs := by
  induction refs generalizing s with
  | nil => rfl
  | cons next rest ih =>
    cases hlook : look load path s next with
    | refused e t => rw [scan_refused hlook, scan_refused hlook]
    | passed t =>
      rw [scan_passed hlook] at hend ⊢
      rw [scan_passed hlook, ih hend]
    | entered scenario t =>
      rw [scan_entered hlook] at hend ⊢
      rw [scan_entered hlook]
      rcases onward_cases (deeper (path ++ [scenario.id]) t scenario.references)
        (fun t => scan load deeper path t rest) with ⟨u, hu, hon⟩ | ⟨hne, hon⟩
      · rw [hon] at hend ⊢
        rw [h _ _ _ (by simp [hu]), hu]
        exact ih hend
      · rw [hon] at hend ⊢
        rw [h _ _ _ hend]
        rcases onward_cases (deeper (path ++ [scenario.id]) t scenario.references)
          (fun t => scan load deeper' path t rest) with ⟨u, hu, -⟩ | ⟨-, hon'⟩
        · exact absurd (by rw [hu]) hne
        · exact hon'

end Stability

/-- A search that comes to its end within a limit comes to the same end within any wider one. -/
theorem visit_stable {d e : Nat} (hde : d ≤ e) {path : List String} {s : Search}
    {refs : List String} (hend : (visit load d path s refs).1 ≠ .unfinished) :
    visit load e path s refs = visit load d path s refs := by
  induction d generalizing e path s refs with
  | zero =>
    cases e with
    | zero => rfl
    | succ e => exact scan_stable (fun _ _ _ h => absurd rfl h) hend
  | succ d ih =>
    cases e with
    | zero => omega
    | succ e => exact scan_stable (fun _ _ _ h => ih (by omega) h) hend

theorem visit_eq_of_finished {d e : Nat} {path : List String} {s : Search} {refs : List String}
    (hd : (visit load d path s refs).1 ≠ .unfinished)
    (he : (visit load e path s refs).1 ≠ .unfinished) :
    visit load d path s refs = visit load e path s refs := by
  rcases Nat.le_total d e with h | h
  · exact (visit_stable h hd).symm
  · exact visit_stable h he

/-- A search only adds to what is done with and to what was asked for. -/
structure Grows (s t : Search) : Prop where
  finished : s.finished ⊆ t.finished
  asked : s.asked ⊆ t.asked

theorem Grows.refl (s : Search) : Grows s s := ⟨List.Subset.refl _, List.Subset.refl _⟩

theorem Grows.trans {s t u : Search} (h : Grows s t) (h' : Grows t u) : Grows s u :=
  ⟨List.Subset.trans h.finished h'.finished, List.Subset.trans h.asked h'.asked⟩

def Look.search : Look → Search
  | .refused _ s | .passed s | .entered _ s => s

theorem Looked.grows {path : List String} {s : Search} {next : String} {l : Look}
    (h : Looked load path s next l) : Grows s l.search := by
  cases h with
  | circle onPath => exact .refl s
  | known offPath done => exact .refl s
  | failed offPath open_ answer => exact ⟨List.Subset.refl _, List.subset_append_left ..⟩
  | absent offPath open_ answer => exact ⟨List.subset_cons_self .., List.subset_append_left ..⟩
  | entered offPath open_ answer => exact ⟨List.Subset.refl _, List.subset_append_left ..⟩

theorem look_grows {path : List String} {s : Search} {next : String} {l : Look}
    (h : look load path s next = l) : Grows s l.search := by
  rw [← h]
  exact (looked load path s next).grows

theorem scan_grows {deeper : List String → Search → List String → Verdict × Search}
    (hdeep : ∀ path s refs, Grows s (deeper path s refs).2) (path : List String) (s : Search)
    (refs : List String) : Grows s (scan load deeper path s refs).2 := by
  induction refs generalizing s with
  | nil => exact ⟨List.subset_cons_self .., List.Subset.refl _⟩
  | cons next rest ih =>
    cases hlook : look load path s next with
    | refused e t =>
      rw [scan_refused hlook]
      exact look_grows hlook
    | passed t =>
      rw [scan_passed hlook]
      exact (look_grows hlook).trans (ih t)
    | entered scenario t =>
      have hbelow := (look_grows hlook).trans (hdeep (path ++ [scenario.id]) t scenario.references)
      rw [scan_entered hlook]
      rcases onward_cases (deeper (path ++ [scenario.id]) t scenario.references)
        (fun t => scan load deeper path t rest) with ⟨u, hu, hon⟩ | ⟨-, hon⟩
      · rw [hu] at hbelow
        rw [hon]
        exact hbelow.trans (ih u)
      · rw [hon]
        exact hbelow

theorem visit_grows (d : Nat) (path : List String) (s : Search) (refs : List String) :
    Grows s (visit load d path s refs).2 := by
  induction d generalizing path s refs with
  | zero => exact scan_grows (fun _ s _ => .refl s) path s refs
  | succ d ih => exact scan_grows ih path s refs

end Rehearsal.Preflight
