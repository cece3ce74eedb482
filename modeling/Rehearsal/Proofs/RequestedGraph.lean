import Rehearsal.Proofs.DepthLimit
import Rehearsal.Proofs.Exactness

/-! # The graph of what was asked for

Of a source whose scenarios go by other names, a rehearsal promises less. It compares the identifiers
that are referred to with the names that the scenarios on the path give themselves, and with those of
the ones done with. So it may pass by a scenario that it never looked at, or meet the same one over and
over.
-/
namespace Rehearsal.Preflight

/-- The rehearsed scenario, and whatever was asked for. -/
def requested (root : Scenario) (s : Search) : List String := root.id :: s.asked

/-- Something that was asked for leads back to itself, through what was asked for. -/
def Circled (load : Load) (root : Scenario) (s : Search) : Prop :=
  ∃ id, Relation.TransGen (fun a b => Refers load root a b ∧ b ∈ requested root s) id id

/-- The search comes to its end, however deep it has to go. -/
def Stops (load : Load) (root : Scenario) : Prop := ∃ d, (search d load root).1 ≠ .unfinished

section Source

variable (source : ScenarioSource) (desk : Desk) (root : Scenario)

/-- The search behind a rehearsal. -/
def rehearsed : Verdict × Search :=
  search (depthLimit (source.ids desk).length) (source.load desk) root

/-- A rehearsal comes to its end, and clears only what goes in no circle. -/
def Reliable : Prop :=
  Stops (source.load desk) root ∧
    ((check source desk root).1 = .ok () →
      ¬ Circled (source.load desk) root (rehearsed source desk root).2)

theorem check_eq_ok_iff :
    (check source desk root).1 = .ok () ↔ (rehearsed source desk root).1 = .clear := by
  unfold check rehearsed
  generalize search (depthLimit (source.ids desk).length) (source.load desk) root = r
  obtain ⟨v, s⟩ := r
  cases v with
  | clear => simp
  | refused e => simp
  | unfinished => simp

theorem stops_iff :
    Stops (source.load desk) root ↔ (rehearsed source desk root).1 ≠ .unfinished := by
  constructor
  · rintro ⟨d, hd⟩ hun
    exact hd (endless_of_unfinished source.listed hun d)
  · intro h
    exact ⟨_, h⟩

theorem circled_of_unfinished (h : (rehearsed source desk root).1 = .unfinished) :
    Circled (source.load desk) root (rehearsed source desk root).2 := by
  obtain ⟨id, hloop⟩ := loop_of_unfinished source.listed
    (length_le_depthLimit (source.ids desk).length) h
  refine ⟨id, Relation.TransGen.mono ?_ _ _ hloop⟩
  rintro a b ⟨hab, hb⟩
  exact ⟨hab, List.mem_cons_of_mem _ hb⟩

theorem not_circled_of_ownNames (own : OwnNames (source.load desk))
    (h : (check source desk root).1 = .ok ()) :
    ¬ Circled (source.load desk) root (rehearsed source desk root).2 := by
  have hmet := search_met own root (depthLimit (source.ids desk).length)
  have hclear := (check_eq_ok_iff source desk root).mp h
  rintro ⟨id, hloop⟩
  have hloop' : Relation.TransGen (Refers (source.load desk) root) id id :=
    Relation.TransGen.mono (fun _ _ hab => hab.1) _ _ hloop
  obtain ⟨a, -, -, hid⟩ := Relation.TransGen.tail'_iff.mp hloop
  unfold rehearsed at hclear hid
  generalize search (depthLimit (source.ids desk).length) (source.load desk) root = r
    at hmet hclear hid
  obtain ⟨v, s⟩ := r
  cases hclear
  obtain ⟨hsound, hroot, -⟩ := hmet
  have hdone : id ∈ s.finished := by
    rcases List.mem_cons.mp hid with rfl | hasked
    · exact hroot
    · rcases hsound.settled id hasked with hdone | hon
      · exact hdone
      · rw [List.mem_singleton.mp hon]
        exact hroot
  exact (hsound.clear id hdone).not_reaches_self hloop'

/-- A rehearsal is reliable where scenarios go by their own names. Elsewhere it is if it refuses
something, or if what it asks for goes in no circle, and only then. -/
theorem reliable_iff :
    (OwnNames (source.load desk) → Reliable source desk root) ∧
    (Reliable source desk root ↔
      (∃ e, (rehearsed source desk root).1 = .refused e) ∨
        ¬ Circled (source.load desk) root (rehearsed source desk root).2) := by
  refine ⟨?_, ?_, ?_⟩
  · intro own
    have hlimit := length_le_depthLimit (source.ids desk).length
    exact ⟨⟨_, search_finished source desk root own hlimit⟩,
      not_circled_of_ownNames source desk root own⟩
  · rintro ⟨hstops, hok⟩
    have hend := (stops_iff source desk root).mp hstops
    cases hv : (rehearsed source desk root).1 with
    | clear => exact .inr (hok ((check_eq_ok_iff source desk root).mpr hv))
    | refused e => exact .inl ⟨e, rfl⟩
    | unfinished => exact absurd hv hend
  · intro h
    have hend : (rehearsed source desk root).1 ≠ .unfinished := by
      intro hun
      rcases h with ⟨e, he⟩ | hnot
      · rw [hun] at he
        cases he
      · exact hnot (circled_of_unfinished source desk root hun)
    refine ⟨(stops_iff source desk root).mpr hend, ?_⟩
    intro hok
    have hclear := (check_eq_ok_iff source desk root).mp hok
    rcases h with ⟨e, he⟩ | hnot
    · rw [hclear] at he
      cases he
    · exact hnot

end Source

def filed (scenarios : List (String × Scenario)) : ScenarioSource where
  load _ id := (.ok (scenarios.lookup id), [])
  ids _ := scenarios.map (·.1)
  listed := by
    intro d id s h
    obtain ⟨before, after, hl, -⟩ := List.lookup_eq_some_iff.mp (Except.ok.inj h)
    simp [hl]

/-- The scenario under `a` has itself played, which is passed by once the one under `c` is done with. -/
def hidden : ScenarioSource := filed [("a", referring "x" ["c", "a"]), ("c", referring "a" [])]

/-- The scenario under `a` has itself played, and never stands on the path under that name. -/
def endless : ScenarioSource := filed [("a", referring "x" ["a"])]

theorem not_reliable_misnamed :
    ¬ Reliable hidden nowhere (referring "r" ["a"]) ∧
      ¬ Reliable endless nowhere (referring "r" ["a"]) := by
  constructor
  · rintro ⟨-, hok⟩
    have hclear : (check hidden nowhere (referring "r" ["a"])).1 = .ok () := rfl
    have hasked : "a" ∈ requested (referring "r" ["a"])
        (rehearsed hidden nowhere (referring "r" ["a"])).2 := by decide
    refine hok hclear ⟨"a", .single ⟨⟨referring "x" ["c", "a"], rfl, ?_⟩, hasked⟩⟩
    decide
  · rintro ⟨hstops, -⟩
    have hun : (rehearsed endless nowhere (referring "r" ["a"])).1 = .unfinished := rfl
    exact (stops_iff endless nowhere (referring "r" ["a"])).mp hstops hun

end Rehearsal.Preflight
