import Rehearsal.Proofs.Telling

/-! # What a cancelled run keeps

The ends of steps that a run has told, against the outcomes in its record. A run that is cancelled
between two steps keeps the outcomes of those before, wherever they are. One that is cancelled in the
middle of a step inside another drops all the work of the outermost step, and with it the outcomes of
the steps inside that were over already.
-/
namespace Rehearsal

/-- The ends of steps among what is told, each with how deep the step was. -/
def endings (es : List Event) : List (Nat × Outcome) :=
  es.filterMap fun
    | .stepEnded _ depth o => some (depth, o)
    | _ => none

mutual

/-- The outcomes of a step and of those played inside it, each with how deep the step was, in the order
of their ends. -/
def Outcome.kept (depth : Nat) : Outcome → List (Nat × Outcome)
  | ⟨index, action, name, status, selector, error, durationMs, screenshot, requests, logs, children⟩ =>
    Outcome.keptIn (depth + 1) children ++
      [(depth, ⟨index, action, name, status, selector, error, durationMs, screenshot, requests, logs,
        children⟩)]

/-- The same for the steps of a scenario that were played. -/
def Outcome.keptIn (depth : Nat) : List Outcome → List (Nat × Outcome)
  | [] => []
  | o :: os =>
    if o.status = .skipped then keptIn depth os else o.kept depth ++ keptIn depth os

end

theorem Outcome.kept_eq (depth : Nat) (o : Outcome) :
    o.kept depth = keptIn (depth + 1) o.children ++ [(depth, o)] := by
  obtain ⟨⟩ := o
  rw [Outcome.kept]

theorem Outcome.keptIn_eq (depth : Nat) (os : List Outcome) :
    keptIn depth os = (executed os).flatMap (kept depth) := by
  induction os with
  | nil => rw [Outcome.keptIn]; rfl
  | cons o os ih =>
    rw [Outcome.keptIn, ih]
    by_cases h : o.status = .skipped
    · simp [executed, h]
    · simp [executed, h]

@[simp] theorem endings_append (es es' : List Event) : endings (es ++ es') = endings es ++ endings es' :=
  List.filterMap_append

@[simp] theorem endings_logged (place : Place) (lines : List String) : endings (place.logged lines) = [] :=
  List.filterMap_eq_nil_iff.mpr (by simp [Place.logged])

theorem endings_opening (place : Place) (action : Action) (name : Option String)
    (before after : List String) (inner : List Event) :
    endings (place.opening action name before inner after) = endings inner := by
  have hstarted : endings [place.started action name] = [] := rfl
  rw [Place.opening, ← List.singleton_append, endings_append, hstarted]
  simp

theorem endings_block (place : Place) (o : Outcome) (before after : List String) (inner : List Event) :
    endings (place.block o before inner after) = endings inner ++ [(place.depth, o)] := by
  have hended : endings [place.ended o] = [(place.depth, o)] := rfl
  rw [show place.block o before inner after =
    place.opening o.action o.name before inner after ++ [place.ended o] from rfl, endings_append,
    endings_opening, hended]

/-- Steps that are told in blocks have all ended, with the outcomes that are kept of them. -/
theorem endings_blocks {place : Place} {os : List Outcome} {es : List Event}
    (blocks : Blocks place os es) : endings es = os.flatMap (Outcome.kept place.depth) := by
  induction blocks with
  | nil => rfl
  | @cons place o os before after id inner rest index logs within later ihWithin ihLater =>
    have hchildren : endings inner = Outcome.keptIn (place.depth + 1) o.children := by
      rw [ihWithin, Outcome.keptIn_eq]
      rfl
    rw [endings_append, endings_block, hchildren, ihLater, List.flatMap_cons, Outcome.kept_eq]
    rfl

/-- All that ends inside a scenario ends at its depth or further in. -/
theorem Blocks.depth_le {place : Place} {os : List Outcome} {es : List Event}
    (blocks : Blocks place os es) : ∀ p ∈ endings es, place.depth ≤ p.1 := by
  induction blocks with
  | nil => simp [endings]
  | @cons place o os before after id inner rest index logs within later ihWithin ihLater =>
    intro p hp
    rw [endings_append, endings_block] at hp
    rcases List.mem_append.mp hp with hp | hp
    · rcases List.mem_append.mp hp with hp | hp
      · exact Nat.le_of_succ_le (ihWithin p hp)
      · rw [List.mem_singleton.mp hp]
    · exact ihLater p hp

theorem Cut.depth_le {place : Place} {es : List Event} (cut : Cut place es) :
    ∀ p ∈ endings es, place.depth ≤ p.1 := by
  induction cut with
  | last earlier within =>
    intro p hp
    rw [endings_append, endings_opening] at hp
    rcases List.mem_append.mp hp with hp | hp
    · exact earlier.depth_le p hp
    · exact Nat.le_of_succ_le (within.depth_le p hp)
  | deeper earlier within ih =>
    intro p hp
    rw [endings_append, endings_opening] at hp
    rcases List.mem_append.mp hp with hp | hp
    · exact earlier.depth_le p hp
    · exact Nat.le_of_succ_le (ih p hp)

/-- Where a step has an end but one inside it has none, it is all that is kept of what has ended there. -/
theorem Stopped.endings_eq {place : Place} {o : Outcome} {es : List Event} (h : Stopped place o es) :
    ∃ lost, endings es = lost ++ [(place.depth, o)] ∧ (∀ p ∈ lost, place.depth < p.1) ∧
      o.kept place.depth = [(place.depth, o)] := by
  obtain ⟨before, after, id, inner, -, -, hchildren, cut, rfl⟩ := h
  refine ⟨endings inner, endings_block .., fun p hp => cut.depth_le p hp, ?_⟩
  rw [Outcome.kept_eq, hchildren, Outcome.keptIn]
  rfl

namespace Run

/-- A run has lost outcomes: it was cancelled in the middle of a step inside the last one of the scenario
itself, and of the steps inside this one that were over none is kept. -/
inductive Loses (scenario : Scenario) (record : RunRecord) (es : List Event) : Prop
  | mk {os : List Outcome} {o : Outcome} {tail : List Event} {lost : List (Nat × Outcome)}
    (cancelled : record.status = .cancelled)
    (last : executed record.steps = os ++ [o])
    (error : o.error = some Failure.cancelled.message)
    (stopped : Stopped ⟨scenario.id, os.length, 0⟩ o tail)
    (told : endings es = os.flatMap (Outcome.kept 0) ++ endings tail)
    (inside : endings tail = lost ++ [(0, o)])
    (deeper : ∀ p ∈ lost, 0 < p.1)
    (some : lost ≠ [])

theorem Loses.of_endings_eq {scenario : Scenario} {record : RunRecord} {es es' : List Event}
    (h : Loses scenario record es) (same : endings es' = endings es) : Loses scenario record es' := by
  obtain ⟨cancelled, last, error, stopped, told, inside, deeper, some⟩ := h
  exact .mk cancelled last error stopped (same.trans told) inside deeper some

/-- A run whose last step was cancelled has kept all that has ended, or lost what was inside that step. -/
theorem kept_or_loses {scenario : Scenario} {record : RunRecord} {init : List Turn} {t : Turn}
    {es₁ es₂ : List Event} (judged : Judged scenario.steps (init ++ [t]) record)
    (hexecuted : executed record.steps = (init ++ [t]).map (·.outcome)) (told : t.Told)
    (hcancelled : t.failure = some .cancelled) (place : t.place = ⟨scenario.id, init.length, 0⟩)
    (blocks : Blocks ⟨scenario.id, 0, 0⟩ (init.map (·.outcome)) es₁)
    (last : Blocks t.place [t.outcome] es₂ ∨ Stopped t.place t.outcome es₂) :
    endings (es₁ ++ es₂) = Outcome.keptIn 0 record.steps ∨ Loses scenario record (es₁ ++ es₂) := by
  rw [List.map_append, List.map_singleton] at hexecuted
  have hfirst : endings es₁ = (init.map (·.outcome)).flatMap (Outcome.kept 0) := endings_blocks blocks
  have hkept : Outcome.keptIn 0 record.steps =
      (init.map (·.outcome)).flatMap (Outcome.kept 0) ++ t.outcome.kept 0 := by
    rw [Outcome.keptIn_eq, hexecuted, List.flatMap_append, List.flatMap_singleton]
  have hplace : t.place = ⟨scenario.id, (init.map (·.outcome)).length, 0⟩ := by
    rw [place, List.length_map]
  rw [endings_append, hfirst]
  rcases last with block | stopped
  · left
    rw [hkept, endings_blocks block, hplace, List.flatMap_singleton]
  rw [hplace] at stopped
  obtain ⟨lost, hinside, hdeeper, hown⟩ := stopped.endings_eq
  by_cases hlost : lost = []
  · left
    rw [hkept, hinside, hlost, hown]
    rfl
  · right
    have hend : (init ++ [t]).getLast? = some t := List.getLast?_concat
    have hmild : ∀ e, ¬ Play.FatalEnd (init ++ [t]) e := by
      rintro e ⟨u, hu, he, hfatal⟩
      rw [hend] at hu
      cases hu
      rw [hcancelled] at he
      cases he
      cases hfatal
    refine .mk (judged.cancelled hmild (.inl ⟨t, hend, hcancelled⟩)).1 hexecuted ?_ stopped
      (by rw [endings_append, hfirst]) hinside hdeeper hlost
    rw [told.error, hcancelled]
    rfl

/-- Every step of a run that has ended is in its record, with the outcome that was told and in the order
of the ends, and nothing else is; but for a run that was cancelled in the middle of a step inside
another. -/
theorem ends_kept (stage : Stage σ) (scenario : Scenario) (runId : String) (c : Clock) (s : World σ) :
    ∃ record c' s' es, (run stage scenario runId).run c s = (some record, c', s') ∧
      s'.events = s.events ++ stage.told es ∧
      (endings es = Outcome.keptIn 0 record.steps ∨ Loses scenario record es) := by
  cases h : (Preflight.check stage.scenarios s.desk scenario).1 with
  | error e =>
    obtain ⟨record, c', s', hrun, hsteps, -, hevents⟩ := run_refused h runId c
    refine ⟨record, c', s', _, hrun, hevents, .inl ?_⟩
    rw [Outcome.keptIn_eq, hsteps, executed_skippedFrom]
    rfl
  | ok u =>
    obtain ⟨record, c', s', s₀, c₁, s₁, played, report, hrun, begins, hplayed, hsteps, judged,
      concludes⟩ := run_judged h runId c
    obtain ⟨es, new, events, -, -, whole, cancelled⟩ := hplayed.tells (Play.runner_tells stage)
    have hexecuted : executed record.steps = played.map (·.outcome) := by
      rw [hsteps, hplayed.policy.executed]
    have hes : endings (.runStarted runId scenario.id scenario.steps.length :: es ++
        [.runCompleted record]) = endings es := by
      rw [← List.singleton_append, endings_append, endings_append]
      exact List.append_nil _
    have kept : endings es = Outcome.keptIn 0 record.steps ∨ Loses scenario record es := by
      by_cases own : ∀ t ∈ played, t.failure ≠ some .cancelled
      · left
        rw [endings_blocks (whole own), Outcome.keptIn_eq, hexecuted]
      · obtain ⟨t, ht, hcancelled⟩ : ∃ t ∈ played, t.failure = some .cancelled := by
          simpa using own
        have told := hplayed.told t ht
        obtain ⟨init, es₁, es₂, rfl, rfl, place, blocks, last⟩ := cancelled t ht hcancelled
        rw [Nat.zero_add] at place
        exact kept_or_loses judged hexecuted told hcancelled place blocks last
    refine ⟨record, c', s', .runStarted runId scenario.id scenario.steps.length :: es ++
      [.runCompleted record], hrun, ?_, ?_⟩
    · rw [concludes.events, events, begins.events]
      simp only [List.append_assoc, ← stage.told_append, List.cons_append, List.nil_append]
    · exact kept.imp hes.trans fun loses => loses.of_endings_eq hes

open Preflight (nowhere referring)

/-- A short rest and a long one. -/
def dozing : Scenario :=
  ⟨"a", none, none, none, [.ofInstruction (.wait "10"), .ofInstruction (.wait "1000")]⟩

/-- Not every step that has ended is in the record. Here the run is cancelled in the long rest, and the
outcome of the short one before it is lost. -/
theorem not_ends_kept :
    ¬ ∀ (stage : Stage Unit) (scenario : Scenario) (c : Clock) (record : RunRecord) (c' : Clock)
      (s' : World Unit), (run stage scenario "1").run c (.ofPage () nowhere) = (some record, c', s') →
      ∀ p ∈ endings s'.events, p ∈ Outcome.keptIn 0 record.steps := by
  intro law
  have hran : ((run (.overheard [dozing]) (referring "r" ["a"]) "1").run ⟨0, false, some 50⟩
      (.ofPage () nowhere)).1.map (fun r => (Outcome.keptIn 0 r.steps).map (·.1)) = some [0] ∧
      (endings ((run (.overheard [dozing]) (referring "r" ["a"]) "1").run ⟨0, false, some 50⟩
        (.ofPage () nowhere)).2.2.events).map (fun p => (p.1, p.2.status)) =
        [(1, .success), (0, .failed)] := by decide +kernel
  generalize hrun : (run (.overheard [dozing]) (referring "r" ["a"]) "1").run ⟨0, false, some 50⟩
    (.ofPage () nowhere) = res at hran
  obtain ⟨_ | record, c', s'⟩ := res
  · cases hran.1
  obtain ⟨hkept, hended⟩ := hran
  obtain ⟨p, rest, hevents, hp, -⟩ := List.map_eq_cons_iff.mp hended
  have hdepth : p.1 = 1 := (Prod.mk.inj hp).1
  have hmem : p.1 ∈ (Outcome.keptIn 0 record.steps).map (·.1) :=
    List.mem_map_of_mem (law _ _ _ _ _ _ hrun p (by rw [hevents]; exact List.mem_cons_self ..))
  have hzero : (Outcome.keptIn 0 record.steps).map (·.1) = [0] := Option.some.inj hkept
  rw [hzero, hdepth] at hmem
  simp at hmem

end Run

end Rehearsal
