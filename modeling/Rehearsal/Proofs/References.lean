import Mathlib.Data.List.Chain
import Mathlib.Data.List.Nodup
import Mathlib.Data.List.Perm.Subperm
import Mathlib.Logic.Relation
import Rehearsal.Run.Preflight

/-! # The graph of references

What is rehearsed is a graph: its nodes are identifiers, and an edge leads from a scenario to every one
that its steps refer to. The rehearsed scenario stands under its own identifier, whatever the source may
have there; any other identifier stands for what is loaded under it.
-/
namespace Rehearsal.Preflight

/-- The scenario that an identifier stands for. -/
def scenarioAt? (load : Load) (root : Scenario) (id : String) : Option Scenario :=
  if id = root.id then some root
  else
    match (load id).1 with
    | .ok found => found
    | .error _ => none

/-- The scenario under the first identifier refers to the second. -/
def Refers (load : Load) (root : Scenario) (a b : String) : Prop :=
  ∃ s, scenarioAt? load root a = some s ∧ b ∈ s.references

/-- Every scenario is loaded under the identifier that it gives itself. -/
def OwnNames (load : Load) : Prop := ∀ {id s}, (load id).1 = .ok (some s) → s.id = id

/-- There is a scenario, or it is known that there is none. -/
def Loads (load : Load) (id : String) : Prop := ∃ found, (load id).1 = .ok found

/-- A way from the rehearsed scenario that ends where it has been before. -/
structure IsCircle (load : Load) (root : Scenario) (chain : List String) : Prop where
  fromRoot : chain.head? = some root.id
  linked : chain.IsChain (Refers load root)
  closed : ∃ before last, chain = before ++ [last] ∧ last ∈ before

/-- No way from the rehearsed scenario comes to where it has been before. -/
def Acyclic (load : Load) (root : Scenario) : Prop :=
  ∀ id, Relation.ReflTransGen (Refers load root) root.id id →
    ¬ Relation.TransGen (Refers load root) id id

/-- From here every way ends, and everything on the way loads. -/
inductive Clear (load : Load) (root : Scenario) : String → Prop
  | intro {id : String} (loads : id = root.id ∨ Loads load id)
      (next : ∀ b, Refers load root id b → Clear load root b) : Clear load root id

variable {load : Load} {root : Scenario}

@[simp] theorem scenarioAt?_root : scenarioAt? load root root.id = some root := by
  simp [scenarioAt?]

theorem scenarioAt?_of_load {id : String} {s : Scenario} (hid : id ≠ root.id)
    (h : (load id).1 = .ok (some s)) : scenarioAt? load root id = some s := by
  simp [scenarioAt?, hid, h]

theorem refers_iff_mem {a b : String} {s : Scenario} (h : scenarioAt? load root a = some s) :
    Refers load root a b ↔ b ∈ s.references := by
  constructor
  · rintro ⟨t, ht, hb⟩
    rw [h] at ht
    cases ht
    exact hb
  · intro hb
    exact ⟨s, h, hb⟩

theorem Clear.loads {id : String} (h : Clear load root id) : id = root.id ∨ Loads load id := by
  cases h with
  | intro loads next => exact loads

theorem Clear.next {a b : String} (h : Clear load root a) (hab : Refers load root a b) :
    Clear load root b := by
  cases h with
  | intro loads next => exact next b hab

theorem Clear.of_reaches {a b : String} (h : Clear load root a)
    (hab : Relation.ReflTransGen (Refers load root) a b) : Clear load root b := by
  induction hab with
  | refl => exact h
  | tail _ hbc ih => exact ih.next hbc

theorem Clear.not_reaches_self {id : String} (h : Clear load root id) :
    ¬ Relation.TransGen (Refers load root) id id := by
  induction h with
  | intro loads next ih =>
    intro hloop
    obtain ⟨b, hb, hback⟩ := Relation.TransGen.head'_iff.mp hloop
    exact ih b hb (Relation.TransGen.tail' hback hb)

theorem transGen_of_isChain {R : String → String → Prop} {before : List String} {last : String}
    (h : (before ++ [last]).IsChain R) {a : String} (ha : a ∈ before) :
    Relation.TransGen R a last := by
  have hstep : (before ++ [last]).IsChain (Relation.TransGen R) := h.imp fun _ _ => .single
  have hpair := List.isChain_iff_pairwise.mp hstep
  exact (List.pairwise_append.mp hpair).2.2 a ha last (List.mem_singleton_self last)

theorem IsCircle.reaches_self {chain : List String} (h : IsCircle load root chain) :
    ∃ id, Relation.ReflTransGen (Refers load root) root.id id ∧
      Relation.TransGen (Refers load root) id id := by
  obtain ⟨before, last, rfl, hlast⟩ := h.closed
  have hloop := transGen_of_isChain h.linked hlast
  cases before with
  | nil => simp at hlast
  | cons first rest =>
    have hfirst : first = root.id := by simpa using h.fromRoot
    subst hfirst
    exact ⟨last, (transGen_of_isChain h.linked (List.mem_cons_self ..)).to_reflTransGen, hloop⟩

theorem IsCircle.not_acyclic {chain : List String} (h : IsCircle load root chain) :
    ¬ Acyclic load root := by
  intro hacyclic
  obtain ⟨id, hreach, hloop⟩ := h.reaches_self
  exact hacyclic id hreach hloop

theorem Clear.acyclic (h : Clear load root root.id) : Acyclic load root :=
  fun _ hreach => (h.of_reaches hreach).not_reaches_self

theorem Clear.loads_of_reaches (h : Clear load root root.id) {id : String}
    (hreach : Relation.TransGen (Refers load root) root.id id) : Loads load id := by
  rcases (h.of_reaches hreach.to_reflTransGen).loads with rfl | hid
  · exact absurd hreach h.not_reaches_self
  · exact hid

end Rehearsal.Preflight
