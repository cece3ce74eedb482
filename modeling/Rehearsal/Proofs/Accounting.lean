import Rehearsal.Proofs.RunCourse

/-! # Every step is accounted for

The record of a run has one outcome for each step of the scenario, in their order, and so have the
children of an outcome for the scenario that its step had played. The steps that were not reached come
last, and nothing is said of them.
-/
namespace Rehearsal

/-- An outcome in which nothing is said of the step but which it is. -/
structure Outcome.Bare (o : Outcome) : Prop where
  selector : o.selector = none
  error : o.error = none
  screenshot : o.screenshot = none
  requests : o.requests = []
  logs : o.logs = []
  children : o.children = []

/-- There is one outcome for each of the steps, in their order. Those that were skipped come last. -/
structure Lined (steps : List Step) (os : List Outcome) : Prop where
  matched : os.map (fun o => (o.index, o.action, o.name)) =
    steps.mapIdx fun i s => (i, s.action, s.name)
  skipped : ∃ n, ∀ (i : Nat) (o : Outcome), os[i]? = some o → (o.status = .skipped ↔ n ≤ i)
  bare : ∀ o ∈ os, o.status = .skipped → o.Bare

/-- The children of an outcome are those of a scenario that was found under the identifier that its step
refers to. -/
inductive Fits (found : String → Scenario → Prop) : Step → Outcome → Prop
  | childless {s : Step} {o : Outcome} (none : o.children = []) : Fits found s o
  | nested {s : Step} {o : Outcome} {id : String} {scenario : Scenario}
    (reference : s.instruction.reference? = some id) (offered : found id scenario)
    (lined : Lined scenario.steps o.children)
    (each : ∀ (i : Nat) s' o', scenario.steps[i]? = some s' → o.children[i]? = some o' →
      Fits found s' o') :
    Fits found s o

/-- The outcomes account for the steps, and their children for the steps that were played inside. -/
structure Accounted (found : String → Scenario → Prop) (steps : List Step) (os : List Outcome) :
    Prop where
  lined : Lined steps os
  each : ∀ (i : Nat) s o, steps[i]? = some s → os[i]? = some o → Fits found s o

theorem Outcome.bare_skipped (index : Nat) (s : Step) : (Outcome.skipped index s).Bare :=
  ⟨rfl, rfl, rfl, rfl, rfl, rfl⟩

@[simp] theorem Report.length_skippedFrom (index : Nat) (steps : List Step) :
    (skippedFrom index steps).length = steps.length := by
  induction steps generalizing index with
  | nil => rfl
  | cons s rest ih => exact congrArg Nat.succ (ih (index + 1))

theorem Report.getElem?_skippedFrom (index : Nat) (steps : List Step) (i : Nat) :
    (skippedFrom index steps)[i]? = steps[i]?.map (Outcome.skipped (index + i)) := by
  induction steps generalizing index i with
  | nil => rfl
  | cons s rest ih =>
    cases i with
    | zero => rfl
    | succ i =>
      rw [skippedFrom, List.getElem?_cons_succ, List.getElem?_cons_succ, ih, Nat.add_right_comm,
        Nat.add_assoc]

variable {σ : Type} {stage : Stage σ}

/-- The source has the scenario under the identifier, at some moment of a run that began at the desk. -/
def Stage.Offers (stage : Stage σ) (d : Desk) (id : String) (scenario : Scenario) : Prop :=
  ∃ d', stage.Reaches d d' ∧ (stage.scenarios.load d' id).1 = .ok (some scenario)

/-- The outcomes are those of the turns of the first steps, and of the other steps skipped. -/
structure Lists (steps : List Step) (played : List Turn) (os : List Outcome) : Prop where
  upTo : played.map (·.step) = steps.take played.length
  told : ∀ t ∈ played, t.Told
  placed : ∀ (i : Nat) t, played[i]? = some t → t.place.index = i
  outcomes : os = played.map (·.outcome) ++
    Report.skippedFrom played.length (steps.drop played.length)

namespace Lists

variable {steps : List Step} {played : List Turn} {os : List Outcome} (h : Lists steps played os)

include h

theorem length_eq : os.length = steps.length := by
  have hle := congrArg List.length h.upTo
  rw [List.length_map, List.length_take] at hle
  rw [h.outcomes, List.length_append, List.length_map, Report.length_skippedFrom, List.length_drop]
  omega

theorem reached {i : Nat} {o : Outcome} (ho : os[i]? = some o) : ∃ s, steps[i]? = some s := by
  have hi := (List.getElem?_eq_some_iff.mp ho).1
  rw [h.length_eq] at hi
  exact ⟨steps[i], List.getElem?_eq_getElem hi⟩

/-- An outcome is that of a turn, or of a step that was skipped. -/
theorem cases_at {i : Nat} {s : Step} {o : Outcome} (hs : steps[i]? = some s)
    (ho : os[i]? = some o) :
    (i < played.length ∧ ∃ t ∈ played, t.step = s ∧ t.place.index = i ∧ o = t.outcome) ∨
      (played.length ≤ i ∧ o = .skipped i s) := by
  rw [h.outcomes] at ho
  rcases Nat.lt_or_ge i played.length with hi | hi
  · have hmap : (played.map (·.step))[i]? = some s := by
      rw [h.upTo, List.getElem?_take_of_lt hi, hs]
    rw [List.getElem?_map, Option.map_eq_some_iff] at hmap
    obtain ⟨t, ht, hstep⟩ := hmap
    rw [List.getElem?_append_left (by simpa using hi), List.getElem?_map, ht] at ho
    cases ho
    exact .inl ⟨hi, t, List.mem_of_getElem? ht, hstep, h.placed i t ht, rfl⟩
  · rw [List.getElem?_append_right (by simpa using hi), Report.getElem?_skippedFrom, List.length_map,
      List.getElem?_drop, Nat.add_sub_cancel' hi, hs] at ho
    cases ho
    exact .inr ⟨hi, rfl⟩

theorem lined : Lined steps os := by
  have unskipped : ∀ t ∈ played, t.outcome.status ≠ .skipped := by
    intro t ht
    rw [(h.told t ht).status]
    split <;> simp
  refine ⟨List.ext_getElem? fun i => ?_, ⟨played.length, fun i o ho => ?_⟩, fun o ho hskipped => ?_⟩
  · rw [List.getElem?_map, List.getElem?_mapIdx]
    cases ho : os[i]? with
    | none =>
      have hi := List.getElem?_eq_none_iff.mp ho
      rw [List.getElem?_eq_none_iff.mpr (h.length_eq ▸ hi)]
      rfl
    | some o =>
      obtain ⟨s, hs⟩ := h.reached ho
      rw [hs]
      rcases h.cases_at hs ho with ⟨-, t, ht, rfl, hplace, rfl⟩ | ⟨-, rfl⟩
      · have told := h.told t ht
        rw [Option.map_some, told.index, told.action, told.name, hplace]
        rfl
      · rfl
  · obtain ⟨s, hs⟩ := h.reached ho
    rcases h.cases_at hs ho with ⟨hi, t, ht, -, -, rfl⟩ | ⟨hi, rfl⟩
    · exact iff_of_false (unskipped t ht) (Nat.not_le.mpr hi)
    · exact iff_of_true rfl hi
  · obtain ⟨i, ho⟩ := List.mem_iff_getElem?.mp ho
    obtain ⟨s, hs⟩ := h.reached ho
    rcases h.cases_at hs ho with ⟨-, t, ht, -, -, rfl⟩ | ⟨-, rfl⟩
    · exact absurd hskipped (unskipped t ht)
    · exact Outcome.bare_skipped i s

/-- The outcomes account for the steps if those of the turns do. -/
theorem accounted {found : String → Scenario → Prop}
    (fits : ∀ t ∈ played, Fits found t.step t.outcome) : Accounted found steps os := by
  refine ⟨h.lined, fun i s o hs ho => ?_⟩
  rcases h.cases_at hs ho with ⟨-, t, ht, rfl, -, rfl⟩ | ⟨-, rfl⟩
  · exact fits t ht
  · exact .childless rfl

end Lists

namespace Play

variable {runner : Runner σ} {place : Place} {stack : CallStack} {step : Step} {w : Watch}

section

variable {d : Desk}

/-- What runners report, when the desk is one that a run from `d` on has come to. -/
def Reports (stage : Stage σ) (d : Desk) (id : String) (e : Exit (Except Failure Report))
    (s s' : World σ) : Prop :=
  stage.Reaches d s.desk → stage.Reaches d s'.desk ∧
    ∀ report, e = .done (.ok report) →
      ∃ scenario, stage.Offers d id scenario ∧ Accounted (stage.Offers d) scenario.steps report.outcomes

variable (does : Does (fun id _ _ _ x e y => Reports stage d id e x.2 y.2) runner)

include does

/-- A step gets the children that its scenario was reported with, if it had one played. -/
theorem Happens.fits {r : Option (Except Failure Unit)} {a b : World σ × Trace}
    (h : Happens stage runner place stack step r a b) (reached : stage.Reaches d a.1.desk) :
    stage.Reaches d b.1.desk ∧ ∃ children, b.2.children = a.2.children ++ children ∧
      (children = [] ∨ ∃ id scenario, step.instruction.reference? = some id ∧
        stage.Offers d id scenario ∧ Accounted (stage.Offers d) scenario.steps children) := by
  cases h with
  | nothing unread => exact ⟨reached, [], (List.append_nil _).symm, .inl rfl⟩
  | reads instruction found noted succeeded => exact ⟨reached, [], (List.append_nil _).symm, .inl rfl⟩
  | plays reference plays bears =>
    cases plays with
    | refused watched answer => exact ⟨(does answer reached).1, [], (List.append_nil _).symm, .inl rfl⟩
    | settled watched answer =>
      obtain ⟨reached', reports⟩ := does answer reached
      obtain ⟨scenario, offered, accounted⟩ := reports _ rfl
      exact ⟨reached', _, rfl, .inr ⟨_, scenario, reference, offered, accounted⟩⟩
    | givenUp watched dropped left =>
      exact ⟨(does dropped reached).1, [], (List.append_nil _).symm, .inl rfl⟩

theorem Course.fits {r : Option (Except Failure Unit)} {s : World σ} {y : World σ × Trace}
    (h : Course stage runner place stack step (s, .empty) r y) (reached : stage.Reaches d s.desk) :
    stage.Reaches d y.1.desk ∧
      (y.2.children = [] ∨ ∃ id scenario, step.instruction.reference? = some id ∧
        stage.Offers d id scenario ∧ Accounted (stage.Offers d) scenario.steps y.2.children) := by
  obtain ⟨a, b, _, _, first, happens, last⟩ := h.moved
  obtain ⟨reached', children, hchildren, fits⟩ := happens.fits does (reached.trans first.desk)
  rw [last.children, hchildren, first.children]
  exact ⟨reached'.trans last.desk, fits⟩

theorem Ends.fits {s s' : World σ} {t : Turn} (h : Ends stage runner w s t s')
    (reached : stage.Reaches d s.desk) :
    stage.Reaches d s'.desk ∧ Fits (stage.Offers d) t.step t.outcome := by
  obtain @⟨r, trace, s', millis, requests, attempted, failure, outcome⟩ := h
  obtain ⟨r', course⟩ := attempted.tried.ended
  rw [← stage.desk_opens t.place t.step s] at reached
  obtain ⟨reached', fits⟩ := course.fits does reached
  have hchildren : t.outcome.children = trace.children := by rw [outcome]; rfl
  rw [stage.desk_closes]
  refine ⟨reached', ?_⟩
  simp only [← hchildren] at fits
  rcases fits with none | ⟨id, scenario, reference, offered, accounted⟩
  · exact .childless none
  · exact .nested reference offered accounted.lined accounted.each

theorem Row.fits {id : String} {depth index : Nat} {s s' : World σ} {played : List Turn}
    (h : Row stage runner id stack depth w index s played s') (reached : stage.Reaches d s.desk) :
    stage.Reaches d s'.desk ∧ ∀ t ∈ played, Fits (stage.Offers d) t.step t.outcome := by
  induction h with
  | none => exact ⟨reached, by simp⟩
  | next turned later ih =>
    obtain ⟨reached', fits⟩ := turned.ends.fits does reached
    obtain ⟨reached'', rest⟩ := ih reached'
    exact ⟨reached'', List.forall_mem_cons.mpr ⟨fits, rest⟩⟩

omit does in
/-- The outcomes of a report are those of the turns and of the steps skipped. -/
theorem Played.lists {id : String} {depth : Nat} {steps : List Step} {x y : Clock × World σ}
    {played : List Turn} {r : Report}
    (h : Played stage runner id stack depth w 0 steps x played r y) : Lists steps played r.outcomes where
  upTo := h.policy.upTo
  told := h.policy.told
  placed := by
    intro i t ht
    rw [h.row.placed ht, Nat.zero_add]
  outcomes := by rw [h.policy.outcomes, Nat.zero_add]

/-- The outcomes of a report account for the steps of its scenario. -/
theorem Played.accounted {id : String} {depth : Nat} {steps : List Step} {x y : Clock × World σ}
    {played : List Turn} {r : Report}
    (h : Played stage runner id stack depth w 0 steps x played r y)
    (reached : stage.Reaches d x.2.desk) :
    stage.Reaches d y.2.desk ∧ Accounted (stage.Offers d) steps r.outcomes := by
  obtain ⟨reached', fits⟩ := h.row.fits does reached
  exact ⟨reached', h.lists.accounted fits⟩

theorem Entered.reports {id : String} {depth : Nat} {x y : Clock × World σ}
    {e : Exit (Except Failure Report)} (h : Entered stage runner id stack depth w x e y) :
    Reports stage d id e x.2 y.2 := by
  intro reached
  cases h with
  | refused lines => exact ⟨reached, by simp⟩
  | @played scenario lines lines' y turns report off loaded played =>
    obtain ⟨reached', accounted⟩ := played.accounted does reached
    refine ⟨reached', ?_⟩
    rintro _ ⟨⟩
    exact ⟨scenario, ⟨x.2.desk, reached, loaded⟩, accounted⟩
  | parted off loaded left parted =>
    obtain ⟨-, step, s₁, -, row, breaks⟩ := parted
    obtain ⟨trace, r, course⟩ := breaks.course
    obtain ⟨reached', -⟩ := row.fits does reached
    rw [← stage.desk_opens _ step s₁] at reached'
    exact ⟨(course.fits does reached').1, fun report he => absurd he (left _)⟩

end

theorem runner_reports (stage : Stage σ) (d : Desk) :
    Does (fun id _ _ _ x e y => Reports stage d id e x.2 y.2) (Play.runner stage) :=
  runner_does (fun reached => ⟨reached, by simp⟩) fun _ does _ _ _ _ _ _ _ entered =>
    entered.reports does

end Play

namespace Run

end Run

end Rehearsal
