import Mathlib.Data.Finset.Card
import Mathlib.Data.Finset.Prod
import Rehearsal.Proofs.References
import Rehearsal.Proofs.Searching

/-! # Searches without end

Where scenarios go by other names than their own a search need not come to an end. One that goes deep
enough stands twice before the same scenario, with the same identifiers on its path and the same ones
done with; all that happened in between then happens again.
-/
namespace Rehearsal.Preflight

variable {load : Load} {deeper deeper' : List String → Search → List String → Verdict × Search}

/-- A scan comes to enter a scenario under an identifier, with nothing wrong before it. -/
inductive Enters (load : Load) (deeper : List String → Search → List String → Verdict × Search)
    (path : List String) : Search → List String → String → Scenario → Search → Prop
  | here {s t : Search} {next : String} {rest : List String} {scenario : Scenario}
    (h : look load path s next = .entered scenario t) :
    Enters load deeper path s (next :: rest) next scenario t
  | passing {s t u : Search} {next key : String} {rest : List String} {scenario : Scenario}
    (h : look load path s next = .passed t) (later : Enters load deeper path t rest key scenario u) :
    Enters load deeper path s (next :: rest) key scenario u
  | clearing {s t u v : Search} {next key : String} {rest : List String} {other scenario : Scenario}
    (h : look load path s next = .entered other t)
    (clear : deeper (path ++ [other.id]) t other.references = (.clear, u))
    (later : Enters load deeper path u rest key scenario v) :
    Enters load deeper path s (next :: rest) key scenario v

theorem enters_of_unfinished {path : List String} {s : Search} {refs : List String}
    (h : (scan load deeper path s refs).1 = .unfinished) :
    ∃ key scenario t, Enters load deeper path s refs key scenario t ∧
      scan load deeper path s refs = deeper (path ++ [scenario.id]) t scenario.references := by
  induction refs generalizing s with
  | nil => cases h
  | cons next rest ih =>
    cases hlook : look load path s next with
    | refused e t =>
      rw [scan_refused hlook] at h
      cases h
    | passed t =>
      rw [scan_passed hlook] at h ⊢
      obtain ⟨key, scenario, u, henter, heq⟩ := ih h
      exact ⟨key, scenario, u, .passing hlook henter, heq⟩
    | entered scenario t =>
      rw [scan_entered hlook] at h ⊢
      rcases onward_cases (deeper (path ++ [scenario.id]) t scenario.references)
        (fun t => scan load deeper path t rest) with ⟨u, hu, hon⟩ | ⟨-, hon⟩
      · rw [hon] at h ⊢
        obtain ⟨key, other, v, henter, heq⟩ := ih h
        exact ⟨key, other, v, .clearing hlook hu henter, heq⟩
      · exact ⟨next, scenario, t, .here hlook, hon⟩

theorem Enters.mono (hclear : ∀ path s refs t, deeper path s refs = (.clear, t) →
      deeper' path s refs = (.clear, t))
    {path : List String} {s t : Search} {refs : List String} {key : String} {scenario : Scenario}
    (h : Enters load deeper path s refs key scenario t) :
    Enters load deeper' path s refs key scenario t := by
  induction h with
  | here h => exact .here h
  | passing h _ ih => exact .passing h ih
  | clearing h clear _ ih => exact .clearing h (hclear _ _ _ _ clear) ih

/-- What is entered is referred to, was asked for on the spot and is not on the path. -/
theorem Enters.entered (hgrows : ∀ path s refs, Grows s (deeper path s refs).2)
    {path : List String} {s t : Search} {refs : List String} {key : String} {scenario : Scenario}
    (h : Enters load deeper path s refs key scenario t) :
    key ∈ refs ∧ key ∉ path ∧ (load key).1 = .ok (some scenario) ∧ key ∈ t.asked ∧ Grows s t := by
  induction h with
  | @here s t next rest scenario h =>
    have hl := looked load path s next
    have hg := look_grows h
    rw [h] at hl
    cases hl with
    | entered offPath open_ answer =>
      exact ⟨List.mem_cons_self .., offPath, by rw [answer], by simp, hg⟩
  | passing h _ ih =>
    obtain ⟨href, hoff, hload, hasked, hg⟩ := ih
    exact ⟨List.mem_cons_of_mem _ href, hoff, hload, hasked, (look_grows h).trans hg⟩
  | @clearing s t u v next key rest other scenario h clear _ ih =>
    obtain ⟨href, hoff, hload, hasked, hg⟩ := ih
    have hbelow := hgrows (path ++ [other.id]) t other.references
    rw [clear] at hbelow
    exact ⟨List.mem_cons_of_mem _ href, hoff, hload, hasked,
      (look_grows h).trans (hbelow.trans hg)⟩

theorem Enters.finished
    (agree : ∀ path s refs, (deeper path s refs).1 ≠ .unfinished →
      (deeper' path s refs).1 ≠ .unfinished → deeper path s refs = deeper' path s refs)
    {path : List String} {s t : Search} {refs : List String} {key : String} {scenario : Scenario}
    (h : Enters load deeper path s refs key scenario t)
    (hend : (scan load deeper' path s refs).1 ≠ .unfinished) :
    (deeper' (path ++ [scenario.id]) t scenario.references).1 ≠ .unfinished := by
  induction h with
  | @here s t next rest scenario h =>
    intro hun
    rw [scan_entered h] at hend
    rcases onward_cases (deeper' (path ++ [scenario.id]) t scenario.references)
      (fun t => scan load deeper' path t rest) with ⟨u, hu, -⟩ | ⟨-, hon⟩
    · rw [hu] at hun
      cases hun
    · rw [hon] at hend
      exact hend hun
  | passing h _ ih =>
    rw [scan_passed h] at hend
    exact ih hend
  | @clearing s t u v next key rest other scenario h clear _ ih =>
    rw [scan_entered h] at hend
    rcases onward_cases (deeper' (path ++ [other.id]) t other.references)
      (fun t => scan load deeper' path t rest) with ⟨w, hw, hon⟩ | ⟨hne, hon⟩
    · have heq := agree (path ++ [other.id]) t other.references (by simp [clear]) (by simp [hw])
      rw [clear, hw] at heq
      cases heq
      rw [hon] at hend
      exact ih hend
    · rw [hon] at hend
      have heq := agree (path ++ [other.id]) t other.references (by simp [clear]) hend
      rw [← heq, clear] at hne
      exact absurd rfl hne

/-- Where a search stands when it begins with the references of a scenario: the identifier that the
scenario was asked for under, and the path and the search so far. -/
structure Stand where
  key : String
  scenario : Scenario
  path : List String
  search : Search

namespace Stand

def start (root : Scenario) : Stand := ⟨root.id, root, [root.id], .empty⟩

def visit (load : Load) (d : Nat) (X : Stand) : Verdict × Search :=
  Preflight.visit load d X.path X.search X.scenario.references

/-- From the first place the search comes to the second, one scenario deeper. -/
def Leads (load : Load) (X Y : Stand) : Prop :=
  Y.path = X.path ++ [Y.scenario.id] ∧
    ∃ d, Enters load (Preflight.visit load d) X.path X.search X.scenario.references Y.key Y.scenario
      Y.search

variable {X Y : Stand}

theorem Leads.entered (h : Leads load X Y) :
    Y.key ∈ X.scenario.references ∧ Y.key ∉ X.path ∧ (load Y.key).1 = .ok (some Y.scenario) ∧
      Y.key ∈ Y.search.asked ∧ Grows X.search Y.search := by
  obtain ⟨-, d, henter⟩ := h
  exact henter.entered (visit_grows d)

theorem Leads.finished (h : Leads load X Y) {d : Nat} (hend : (X.visit load d).1 ≠ .unfinished) :
    ∃ e < d, (Y.visit load e).1 ≠ .unfinished := by
  obtain ⟨hpath, d', henter⟩ := h
  cases d with
  | zero =>
    have hbelow : (giveUp (X.path ++ [Y.scenario.id]) Y.search Y.scenario.references).1 ≠
        .unfinished := henter.finished (fun _ _ _ _ h => absurd rfl h) hend
    exact absurd rfl hbelow
  | succ d =>
    refine ⟨d, Nat.lt_succ_self d, ?_⟩
    unfold Stand.visit
    rw [hpath]
    exact henter.finished (fun _ _ _ hd he => visit_eq_of_finished hd he) hend

theorem finished_of_transGen (h : Relation.TransGen (Leads load) X Y) {d : Nat}
    (hend : (X.visit load d).1 ≠ .unfinished) : ∃ e < d, (Y.visit load e).1 ≠ .unfinished := by
  induction h with
  | single hXY => exact hXY.finished hend
  | tail _ hYZ ih =>
    obtain ⟨e, he, hY⟩ := ih
    obtain ⟨f, hf, hZ⟩ := hYZ.finished hY
    exact ⟨f, by omega, hZ⟩

/-- A search that is unfinished at some depth has stood before that many scenarios, each below the one
before it. -/
theorem chain_of_unfinished {d : Nat} (h : (X.visit load d).1 = .unfinished) :
    ∃ l : List Stand, l.length = d + 1 ∧ (X :: l).IsChain (Leads load) ∧
      ∀ Y ∈ l, Grows Y.search (X.visit load d).2 := by
  induction d generalizing X with
  | zero =>
    obtain ⟨key, scenario, t, henter, heq⟩ := enters_of_unfinished h
    have henter' : Enters load (Preflight.visit load 0) X.path X.search X.scenario.references key
        scenario t := by
      refine henter.mono ?_
      intro path s refs t hclear
      cases hclear
    refine ⟨[⟨key, scenario, X.path ++ [scenario.id], t⟩], rfl, ?_, ?_⟩
    · exact .cons_cons ⟨rfl, 0, henter'⟩ (.singleton _)
    · intro Y hY
      rw [List.mem_singleton.mp hY]
      unfold Stand.visit Preflight.visit
      rw [heq]
      exact .refl t
  | succ d ih =>
    obtain ⟨key, scenario, t, henter, heq⟩ := enters_of_unfinished h
    let Y : Stand := ⟨key, scenario, X.path ++ [scenario.id], t⟩
    have hsame : X.visit load (d + 1) = Y.visit load d := heq
    rw [hsame] at h ⊢
    obtain ⟨l, hlength, hchain, hgrows⟩ := ih h
    refine ⟨Y :: l, by simp [hlength], .cons_cons ⟨rfl, d, henter⟩ hchain, ?_⟩
    intro Z hZ
    rcases List.mem_cons.mp hZ with rfl | hZ
    · exact visit_grows d _ _ _
    · exact hgrows Z hZ

end Stand

end Rehearsal.Preflight
