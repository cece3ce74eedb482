import Rehearsal.Proofs.Telling

/-! # The result told again

Whoever listens to a run can put its result together from what is told: the outcome of a step comes with
its end, its lines and the steps inside it are told before. Only the steps that were skipped are never
told of.
-/
namespace Rehearsal

mutual

/-- An outcome whose children were played, and theirs. -/
def Outcome.withoutSkipped : Outcome → Outcome
  | ⟨index, action, name, status, selector, error, durationMs, screenshot, requests, logs, children⟩ =>
    ⟨index, action, name, status, selector, error, durationMs, screenshot, requests, logs,
      Outcome.leaveSkipped children⟩

/-- The outcomes of steps that were played, and so on for their children. -/
def Outcome.leaveSkipped : List Outcome → List Outcome
  | [] => []
  | o :: os => if o.status = .skipped then leaveSkipped os else o.withoutSkipped :: leaveSkipped os

end

theorem Outcome.withoutSkipped_eq (o : Outcome) :
    o.withoutSkipped = { o with children := leaveSkipped o.children } := by
  obtain ⟨⟩ := o
  rw [Outcome.withoutSkipped]

theorem Outcome.leaveSkipped_eq (os : List Outcome) :
    leaveSkipped os = (executed os).map Outcome.withoutSkipped := by
  induction os with
  | nil => rw [Outcome.leaveSkipped]; rfl
  | cons o os ih =>
    rw [Outcome.leaveSkipped, ih]
    split
    · rename_i h
      simp [executed, h]
    · rename_i h
      simp [executed, h]

/-- A step that has been told to start, but not to end: its lines so far, and the steps inside it. -/
structure Unfinished where
  place : Place
  lines : List String
  children : List Outcome

/-- What has been heard of a run: the steps that are under way, innermost first, and those of the
scenario itself that are over. -/
structure Heard where
  underWay : List Unfinished
  past : List Outcome

namespace Heard

def nothing : Heard := ⟨[], []⟩

/-- Steps that are over belong to the innermost one that is under way. -/
def add (h : Heard) (os : List Outcome) : Heard :=
  match h.underWay with
  | [] => { h with past := h.past ++ os }
  | u :: us => { h with underWay := { u with children := u.children ++ os } :: us }

/-- Hears of one more event. What is told of a step must fit the innermost one that is under way. -/
def hear (h : Heard) : Event → Option Heard
  | .runStarted .. => some h
  | .stepStarted scenario depth index _ _ =>
    if depth = h.underWay.length then
      some { h with underWay := ⟨⟨scenario, index, depth⟩, [], []⟩ :: h.underWay }
    else none
  | .stepLog scenario depth index line =>
    match h.underWay with
    | [] => none
    | u :: us =>
      if u.place = ⟨scenario, index, depth⟩ then
        some { h with underWay := { u with lines := u.lines ++ [line] } :: us }
      else none
  | .stepEnded scenario depth o =>
    match h.underWay with
    | [] => none
    | u :: us =>
      if u.place = ⟨scenario, o.index, depth⟩ then
        some ({ h with underWay := us }.add [{ o with logs := u.lines, children := u.children }])
      else none
  | .runCompleted _ => some h

end Heard

/-- The outcomes of a scenario's steps as they are told, with the lines and the children that are told
of them; none if the events do not fit into each other. -/
def rebuild (events : List Event) : Option (List Outcome) :=
  match events.foldlM Heard.hear .nothing with
  | some ⟨[], past⟩ => some past
  | _ => none

namespace Heard

theorem length_underWay_add (h : Heard) (os : List Outcome) :
    (h.add os).underWay.length = h.underWay.length := by
  unfold add
  split
  · rfl
  · rename_i hu
    rw [hu]
    rfl

theorem add_add (h : Heard) (os os' : List Outcome) : (h.add os).add os' = h.add (os ++ os') := by
  obtain ⟨_ | ⟨u, us⟩, past⟩ := h
  · simp [add]
  · simp [add]

@[simp] theorem add_nil (h : Heard) : h.add [] = h := by
  obtain ⟨_ | ⟨u, us⟩, past⟩ := h
  · simp [add]
  · simp [add]

theorem hear_logged (place : Place) (us : List Unfinished) (past children : List Outcome)
    (lines before : List String) :
    (place.logged lines).foldlM hear ⟨⟨place, before, children⟩ :: us, past⟩ =
      some ⟨⟨place, before ++ lines, children⟩ :: us, past⟩ := by
  induction lines generalizing before with
  | nil => simp
  | cons line lines ih =>
    rw [Place.logged, List.map_cons, List.foldlM_cons]
    have heard : hear ⟨⟨place, before, children⟩ :: us, past⟩
        (.stepLog place.scenario place.depth place.index line) =
          some ⟨⟨place, before ++ [line], children⟩ :: us, past⟩ := by
      simp [hear]
    rw [heard]
    have rest := ih (before ++ [line])
    rw [List.append_assoc] at rest
    exact rest

/-- A block is heard as the outcome that it tells, if what is inside it is. -/
theorem hear_block {place : Place} {o : Outcome} {before after : List String} {inner : List Event}
    {h : Heard} (depth : h.underWay.length = place.depth) (index : o.index = place.index)
    (logs : o.logs = before ++ after)
    (within : ∀ u : Unfinished, u.children = [] → inner.foldlM hear ⟨u :: h.underWay, h.past⟩ =
      some ⟨{ u with children := Outcome.leaveSkipped o.children } :: h.underWay, h.past⟩) :
    (place.block o before inner after).foldlM hear h = some (h.add [o.withoutSkipped]) := by
  have started : hear h (place.started o.action o.name) =
      some ⟨⟨place, [], []⟩ :: h.underWay, h.past⟩ := by
    simp [hear, Place.started, depth]
  have ended : hear ⟨⟨place, before ++ after, Outcome.leaveSkipped o.children⟩ :: h.underWay, h.past⟩
      (place.ended o) = some (h.add [o.withoutSkipped]) := by
    rw [o.withoutSkipped_eq, ← logs]
    simp [hear, Place.ended, index]
  rw [Place.block, List.foldlM_append, List.foldlM_cons, started]
  simp only [Option.bind_eq_bind, Option.bind_some, List.foldlM_append]
  rw [hear_logged, List.nil_append, Option.bind_some, within _ rfl, Option.bind_some, hear_logged,
    Option.bind_some, List.foldlM_cons, ended]
  rfl

/-- Blocks are heard as the outcomes that they tell, at the depth that is due. -/
theorem hear_blocks {place : Place} {os : List Outcome} {es : List Event} (blocks : Blocks place os es)
    {h : Heard} (depth : h.underWay.length = place.depth) :
    es.foldlM hear h = some (h.add (os.map Outcome.withoutSkipped)) := by
  induction blocks generalizing h with
  | nil => simp
  | @cons place o os before after id inner rest index logs within later ihWithin ihLater =>
    have block := hear_block depth index logs fun u hu => by
      rw [ihWithin (by simpa [Place.inside] using depth), Outcome.leaveSkipped_eq]
      simp [add, hu]
    rw [List.foldlM_append, block, Option.bind_eq_bind, Option.bind_some,
      ihLater ((length_underWay_add h _).trans depth), add_add]
    rfl

end Heard

/-- What was told in blocks can be put together again. -/
theorem rebuild_blocks {id : String} {os : List Outcome} {es : List Event}
    (blocks : Blocks ⟨id, 0, 0⟩ os es) (runId : String) (total : Nat) (record : RunRecord) :
    rebuild (Event.runStarted runId id total :: es ++ [.runCompleted record]) =
      some (os.map Outcome.withoutSkipped) := by
  have heard : (Event.runStarted runId id total :: es ++ [Event.runCompleted record]).foldlM Heard.hear
      .nothing = some (Heard.nothing.add (os.map Outcome.withoutSkipped)) := by
    rw [List.foldlM_append, List.foldlM_cons]
    simp only [Heard.hear, Option.bind_eq_bind, Option.bind_some,
      Heard.hear_blocks (h := .nothing) blocks rfl]
    rfl
  rw [rebuild, heard]
  simp [Heard.add, Heard.nothing]

namespace Run

/-- Where no step of a run was cancelled, what it has told is what its record says: the same outcomes,
with the same lines, in the same order and inside the same steps. Only the steps that were skipped are
left out. -/
theorem rebuild_eq_steps {σ : Type} (stage : Stage σ) (scenario : Scenario) (runId : String) (c : Clock)
    (s : World σ) :
    ∃ record c' s' new es, (run stage scenario runId).run c s = (some record, c', s') ∧
      s'.turns = s.turns ++ new ∧ s'.events = s.events ++ stage.told es ∧
      ((∀ t ∈ new, t.failure ≠ some .cancelled) →
        rebuild es = some (Outcome.leaveSkipped record.steps)) := by
  cases h : (Preflight.check stage.scenarios s.desk scenario).1 with
  | error e =>
    obtain ⟨record, c', s', hrun, hsteps, hturns, hevents⟩ := run_refused h runId c
    refine ⟨record, c', s', [], _, hrun, by rw [hturns, List.append_nil], hevents, fun _ => ?_⟩
    rw [Outcome.leaveSkipped_eq, hsteps, executed_skippedFrom]
    rfl
  | ok u =>
    obtain ⟨record, c', s', s₀, c₁, s₁, played, report, hrun, -, hturns₀, -, hevents₀, hplayed, hsteps,
      hturns, -, hevents⟩ := run_played h runId c
    obtain ⟨es, new, events, hnew, htop, whole, -⟩ := hplayed.tells (Play.runner_tells stage)
    refine ⟨record, c', s', new, .runStarted runId scenario.id scenario.steps.length :: es ++
      [.runCompleted record], hrun, by rw [hturns, hnew, hturns₀], ?_, fun own => ?_⟩
    · rw [hevents, events, hevents₀]
      simp only [List.append_assoc, ← stage.told_append, List.cons_append, List.nil_append]
    · have blocks := whole fun t ht => own t (List.mem_of_mem_filter (htop ▸ ht))
      rw [rebuild_blocks blocks, Outcome.leaveSkipped_eq, hsteps, hplayed.policy.executed]

open Preflight (nowhere referring)

theorem rebuild_eq_steps_missing :
    ∃ record c s, (run (.overheard [referring "a" ["gone", "gone"]]) (referring "r" ["a", "a"]) "1").run
        .start (.ofPage () nowhere) = (some record, c, s) ∧
      record.steps.map (·.children.length) = [2, 0] ∧
      (rebuild s.events).map (·.map (·.children.length)) = some [1] := by
  obtain ⟨record, c, s, new, es, hrun, hturns, hevents, told⟩ :=
    rebuild_eq_steps (.overheard [referring "a" ["gone", "gone"]]) (referring "r" ["a", "a"]) "1" .start
      (.ofPage () nowhere)
  have hran : ((run (.overheard [referring "a" ["gone", "gone"]]) (referring "r" ["a", "a"]) "1").run
      .start (.ofPage () nowhere)).1.map (fun r => (r.steps.map (·.children.length),
        (Outcome.leaveSkipped r.steps).map (·.children.length))) = some ([2, 0], [1]) ∧
      ((run (.overheard [referring "a" ["gone", "gone"]]) (referring "r" ["a", "a"]) "1").run
        .start (.ofPage () nowhere)).2.2.turns.all (·.failure ≠ some .cancelled) = true := by
    decide +kernel
  rw [hrun] at hran
  obtain ⟨hsteps, hown⟩ := hran
  obtain ⟨hsteps, hleft⟩ := Prod.mk.inj (Option.some.inj hsteps)
  have hnew : s.turns = new := hturns
  have hes : s.events = es := hevents
  refine ⟨record, c, s, hrun, hsteps, ?_⟩
  rw [hes, told fun t ht => by simpa using List.all_eq_true.mp hown t (hnew ▸ ht)]
  exact congrArg some hleft

end Run

end Rehearsal
