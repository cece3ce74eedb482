import Rehearsal.Proofs.Assurance
import Rehearsal.Proofs.Keeping

/-! # Whose requests they are

A page collects the requests that its calls bring about, and a step takes them when it ends. What is
there when a step begins is thrown away; for a step inside another these are the requests of the step
around, and only one that makes sure of a login has any by then. In a run that is never cancelled no
other request is lost, and none is told twice.
-/
namespace Rehearsal

open Timed (Maintains Whatever)

variable {σ : Type}

section

variable (waiting arrived : σ → List NetworkRequest)

/-- The requests have arrived on the page and are waiting to be taken. -/
structure Gains (page page' : σ) (news : List NetworkRequest) : Prop where
  waiting : waiting page' = waiting page ++ news
  arrived : arrived page' = arrived page ++ news

/-- Requests arrive on the page only in calls to the browser, and wait there until they are taken. -/
structure Browser.Collects (b : Browser σ) : Prop where
  offered : ∀ {α : Type} {call : Call σ α}, b.Offers call →
    ∀ {w : Watch} {c : Clock} {s : World σ} {e y}, call.run w c s = (e, y) → ∃ news, Gains waiting arrived s.page y.2.page news
  taken : ∀ {w : Watch} {c : Clock} {s : World σ} {requests y},
    b.takeRequests.run w c s = (.done requests, y) →
      requests = waiting s.page ∧ waiting y.2.page = [] ∧ arrived y.2.page = arrived s.page
  finished : ∀ {w : Watch} {c : Clock} {s : World σ} {e y},
    b.finishRecording.run w c s = (e, y) → ∃ news, arrived y.2.page = arrived s.page ++ news

end

/-- The requests told in the outcomes of steps and of those inside them. -/
def Outcome.requestsIn (os : List Outcome) : List NetworkRequest :=
  (keptIn 0 os).flatMap (·.2.requests)

/-- What arrives while steps are under way, one after another, is told in their outcomes, but for the
requests that are lost. While one of them is under way first come those that it misses, then those of the
steps inside it, and at last its own. -/
inductive Attributes : List Outcome → List NetworkRequest → List NetworkRequest → Prop
  | nil : Attributes [] [] []
  | skipped {o : Outcome} {os : List Outcome} {during lost : List NetworkRequest}
    (skipped : o.status = .skipped) (later : Attributes os during lost) : Attributes (o :: os) during lost
  | next {o : Outcome} {os : List Outcome} {missed within lost during lost' : List NetworkRequest}
    (ran : o.status ≠ .skipped) (inside : Attributes o.children within lost)
    (logsIn : missed ≠ [] → o.action = .ensureAuth ∧ ∃ child ∈ o.children, child.status ≠ .skipped)
    (later : Attributes os during lost') :
    Attributes (o :: os) (missed ++ within ++ o.requests ++ during) (missed ++ lost ++ lost')

namespace Attributes

variable {o : Outcome} {os : List Outcome} {during lost during' lost' : List NetworkRequest}

theorem one {missed within : List NetworkRequest} (ran : o.status ≠ .skipped)
    (inside : Attributes o.children within lost)
    (logsIn : missed ≠ [] → o.action = .ensureAuth ∧ ∃ child ∈ o.children, child.status ≠ .skipped) :
    Attributes [o] (missed ++ within ++ o.requests) (missed ++ lost) := by
  have next := Attributes.next ran inside logsIn .nil
  rwa [List.append_nil, List.append_nil] at next

theorem cons (first : Attributes [o] during lost) (later : Attributes os during' lost') :
    Attributes (o :: os) (during ++ during') (lost ++ lost') := by
  cases first with
  | skipped skipped none =>
    cases none
    exact .skipped skipped later
  | next ran inside logsIn none =>
    cases none
    rw [List.append_nil, List.append_nil]
    exact .next ran inside logsIn later

theorem of_skipped (h : ∀ o ∈ os, o.status = .skipped) : Attributes os [] [] := by
  induction os with
  | nil => exact .nil
  | cons o os ih => exact .skipped (h o (by simp)) (ih fun o ho => h o (by simp [ho]))

/-- Each request that is not lost is told once. -/
theorem perm (h : Attributes os during lost) (depth : Nat) :
    during.Perm ((Outcome.keptIn depth os).flatMap (·.2.requests) ++ lost) := by
  induction h generalizing depth with
  | nil => exact .refl _
  | skipped skipped later ih =>
    rw [Outcome.keptIn, if_pos skipped]
    exact ih depth
  | @next o os missed within lost during lost' ran inside logsIn later ihInside ihLater =>
    have hinside := ihInside (depth + 1)
    have hlater := ihLater depth
    rw [Outcome.keptIn, if_neg ran, Outcome.kept_eq, List.flatMap_append, List.flatMap_append,
      List.flatMap_singleton]
    generalize (Outcome.keptIn (depth + 1) o.children).flatMap (·.2.requests) = inner at hinside ⊢
    generalize (Outcome.keptIn depth os).flatMap (·.2.requests) = rest at hlater ⊢
    rw [List.perm_iff_count] at hinside hlater ⊢
    intro a
    have hinside := hinside a
    have hlater := hlater a
    simp only [List.count_append] at hinside hlater ⊢
    omega

/-- Nothing is lost where no step that makes sure of a login has had a step played. -/
theorem nothing_lost (h : Attributes os during lost)
    (quiet : ∀ p ∈ Outcome.keptIn 0 os, p.2.action = .ensureAuth →
      ∀ child ∈ p.2.children, child.status = .skipped) : lost = [] := by
  suffices ∀ depth, (∀ p ∈ Outcome.keptIn depth os, p.2.action = .ensureAuth →
      ∀ child ∈ p.2.children, child.status = .skipped) → lost = [] from this 0 quiet
  clear quiet
  induction h with
  | nil => exact fun _ _ => rfl
  | skipped skipped later ih =>
    intro depth quiet
    rw [Outcome.keptIn, if_pos skipped] at quiet
    exact ih depth quiet
  | @next o os missed within lost during lost' ran inside logsIn later ihInside ihLater =>
    intro depth quiet
    rw [Outcome.keptIn, if_neg ran, Outcome.kept_eq] at quiet
    have hmissed : missed = [] := by
      by_contra hmissed
      obtain ⟨logs, child, hchild, hran⟩ := logsIn hmissed
      exact hran (quiet (depth, o) (by simp) logs child hchild)
    have hinside : lost = [] := ihInside (depth + 1) fun p hp => quiet p (by simp [hp])
    have hlater : lost' = [] := ihLater depth fun p hp => quiet p (by simp [hp])
    rw [hmissed, hinside, hlater]
    rfl

end Attributes

/-- All that arrived is told in the outcomes, each request once, but for those that are lost; and none is
lost where no step that makes sure of a login has had a step played. -/
structure Covers (os : List Outcome) (during lost : List NetworkRequest) : Prop where
  parts : Attributes os during lost
  told : during.Perm (Outcome.requestsIn os ++ lost)
  whole : (∀ p ∈ Outcome.keptIn 0 os, p.2.action = .ensureAuth →
    ∀ child ∈ p.2.children, child.status = .skipped) → lost = []

theorem Attributes.covers {os : List Outcome} {during lost : List NetworkRequest}
    (h : Attributes os during lost) : Covers os during lost :=
  ⟨h, h.perm 0, h.nothing_lost⟩

section

variable {waiting arrived : σ → List NetworkRequest} {stage : Stage σ} {place : Place}

namespace Gains

theorem refl (page : σ) : Gains waiting arrived page page [] :=
  ⟨(List.append_nil _).symm, (List.append_nil _).symm⟩

theorem trans {page page' page'' : σ} {news more : List NetworkRequest}
    (h : Gains waiting arrived page page' news) (h' : Gains waiting arrived page' page'' more) :
    Gains waiting arrived page page'' (news ++ more) :=
  ⟨by rw [h'.waiting, h.waiting, List.append_assoc], by rw [h'.arrived, h.arrived, List.append_assoc]⟩

end Gains

variable (collects : stage.browser.Collects waiting arrived)

include collects

/-- Of what a step does by itself only its calls bring requests. -/
theorem Browser.Collects.endures (page : σ) :
    stage.Endures place fun y => ∃ news, Gains waiting arrived page y.1.page news := by
  rintro y z act ⟨news, gains⟩
  cases act with
  | call offered ran =>
    obtain ⟨more, gains'⟩ := collects.offered offered ran
    exact ⟨news ++ more, gains.trans gains'⟩
  | note line =>
    refine ⟨news, ?_⟩
    rw [stage.page_heard]
    exact gains
  | _ => exact ⟨news, gains⟩

theorem Browser.Collects.gains {x y : World σ × Trace} (goes : stage.GoesTo place x y) :
    ∃ news, Gains waiting arrived x.1.page y.1.page news := by
  have endures : stage.Endures place fun y => ∃ news, Gains waiting arrived x.1.page y.1.page news :=
    collects.endures x.1.page
  exact endures.along (fun _ _ _ h => h) goes ⟨[], .refl _⟩

/-- The picture that may be taken at the end brings requests at most. -/
theorem Browser.Collects.gains_of_captureAfter {action : Action} {stem : String} {r : Except Failure Unit}
    {w : Watch} {b b' : Clock × World σ × Trace}
    (h : Play.captureAfter stage action stem r w b.1 b.2 = (.done (), b')) :
    (∃ news, Gains waiting arrived b.2.1.page b'.2.1.page news) ∧ b'.2.2.children = b.2.2.children := by
  have endures : stage.Endures ⟨"", 0, 0⟩ fun y : World σ × Trace =>
      ∃ news, Gains waiting arrived b.2.1.page y.1.page news := collects.endures b.2.1.page
  have firm : stage.Firm ⟨"", 0, 0⟩ fun y => y.2.children = b.2.2.children := by
    intro y z move h
    obtain ⟨_, moved⟩ := move.moved
    exact moved.children.trans h
  constructor
  · exact (Play.maintains_captureAfter endures (fun _ _ _ h => h) _ _ _).holds ⟨[], .refl _⟩ h
  · exact (Play.maintains_captureAfter firm.endures firm.shown _ _ _).holds rfl h

end

namespace Play

section

variable (stage : Stage σ) (waiting arrived : σ → List NetworkRequest)

/-- In the turn of a step, from its start to its end, all requests that arrived are attributed. -/
def Attributed (t : Turn) : Prop :=
  ∃ (runner : Runner σ) (w : Watch) (x y : Clock × World σ) (during lost : List NetworkRequest),
    IsRunner stage runner ∧
    turn stage runner t.place t.stack t.step w x.1 x.2 = (.done (t.outcome, t.failure), y) ∧
    arrived y.2.page = arrived x.2.page ++ during ∧ Covers [t.outcome] during lost

/-- What has become of the requests where a scenario is dealt with while the run is not cancelled: if a
step of it is played, none is waiting afterwards. -/
inductive Collected (s : World σ) : Except Failure Report → World σ → Prop
  | refused {e : Failure} {s' : World σ} (counts : Counts s [] s') (page : s'.page = s.page) :
    Collected s (.error e) s'
  | unplayed {report : Report} {s' : World σ} (counts : Counts s [] s') (page : s'.page = s.page)
    (skipped : ∀ o ∈ report.outcomes, o.status = .skipped) : Collected s (.ok report) s'
  | played {new : List Turn} {report : Report} {during lost : List NetworkRequest} {s' : World σ}
    (counts : Counts s new s') (each : ∀ t ∈ new, Attributed stage arrived t)
    (emptied : waiting s'.page = []) (arrives : arrived s'.page = arrived s.page ++ during)
    (attributes : Attributes report.outcomes during lost)
    (ran : ∃ o ∈ report.outcomes, o.status ≠ .skipped) : Collected s (.ok report) s'

/-- What an attempt at a step leaves behind where none was waiting: after the requests that the steps
inside it throw away have come those of these steps, and at last those that wait for the step itself. -/
structure Leaves (step : Step) (s : World σ) (new : List Turn)
    (missed within own lost : List NetworkRequest) (y : World σ × Trace) : Prop where
  counts : Counts s new y.1
  each : ∀ t ∈ new, Attributed stage arrived t
  waits : waiting y.1.page = own
  arrives : arrived y.1.page = arrived s.page ++ (missed ++ within ++ own)
  parts : Attributes y.2.children within lost
  logsIn : missed ≠ [] → step.action = .ensureAuth ∧ ∃ child ∈ y.2.children, child.status ≠ .skipped

abbrev Collecting : Conduct σ := fun _ _ _ _ x e y =>
  y.1.isCancelled = false → ∀ r, e = .done r → Collected stage waiting arrived x.2 r y.2

end

variable {stage : Stage σ} {waiting arrived : σ → List NetworkRequest} {runner : Runner σ}
  {place : Place} {stack : CallStack} {step : Step} {w : Watch}

/-- Where no step was played in an attempt, all that arrives waits for the step itself. -/
theorem Leaves.own {s : World σ} {news : List NetworkRequest} {y : World σ × Trace}
    (counts : Counts s [] y.1) (empty : waiting s.page = [])
    (gains : Gains waiting arrived s.page y.1.page news)
    (skipped : ∀ o ∈ y.2.children, o.status = .skipped) :
    Leaves stage waiting arrived step s [] [] [] news [] y where
  counts
  each := by simp
  waits := by rw [gains.waiting, empty, List.nil_append]
  arrives := gains.arrived
  parts := .of_skipped skipped
  logsIn := by simp

section

variable (collects : stage.browser.Collects waiting arrived)
  (does : Does (Collecting stage waiting arrived) runner)

include collects does

theorem Undergone.leaves {c : Clock} {s : World σ} {r : Except Failure Unit}
    {b : Clock × World σ × Trace}
    (undergone : Undergone stage runner place stack step (c, s, .empty) r b)
    (calm : b.1.isCancelled = false) (empty : waiting s.page = []) :
    ∃ new missed within own lost, Leaves stage waiting arrived step s new missed within own lost b.2 := by
  cases undergone with
  | @alone z goes kept =>
    obtain ⟨begun, turns, children, -⟩ := goes.stays
    obtain ⟨world, same⟩ := same_of_kept kept
    obtain ⟨own, gains⟩ := collects.gains goes
    have childless : b.2.2.children = [] := same.trans children
    exact ⟨[], [], [], own, [], .own (.refl_of (world ▸ turns) (world ▸ begun)) empty (world ▸ gains)
      (by simp [childless])⟩
  | @plays id w r' a b' reference before idle performed later after bears =>
    obtain ⟨-, -, children, -⟩ := before.stays
    obtain ⟨-, -, children', -⟩ := after.stays
    obtain ⟨missed, gains⟩ := collects.gains before
    obtain ⟨own, gains'⟩ := collects.gains after
    have calm' : b'.1.isCancelled = false := later.not_isCancelled calm
    have childless : a.2.2.children = [] := children
    -- Nothing is thrown away if no step is played.
    have passed : b'.2.1.page = a.2.1.page → Gains waiting arrived s.page b.2.1.page (missed ++ own) := by
      intro page
      rw [page] at gains'
      exact gains.trans gains'
    obtain ⟨e, -, trace, hrunner⟩ | ⟨report, -, trace, hrunner⟩ := answer_of_perform performed
    · have none : b.2.2.children = [] := by rw [children', trace, childless]
      have collected := does hrunner calm' _ rfl
      cases collected with
      | refused counts page =>
        exact ⟨[], [], [], missed ++ own, [], .own (counts.amid before after) empty (passed page)
          (by simp [none])⟩
    · have outcomes : b.2.2.children = report.outcomes := by
        rw [children', trace]
        simp only [childless, List.nil_append]
      have collected := does hrunner calm' _ rfl
      cases collected with
      | unplayed counts page skipped =>
        exact ⟨[], [], [], missed ++ own, [], .own (counts.amid before after) empty (passed page)
          (outcomes ▸ skipped)⟩
      | @played new _ within lost _ counts each emptied arrives attributes ran =>
        refine ⟨new, missed, within, own, lost, counts.amid before after, each, ?_, ?_,
          outcomes ▸ attributes, fun hmissed => ⟨?_, outcomes ▸ ran⟩⟩
        · rw [gains'.waiting, emptied, List.nil_append]
        · rw [gains'.arrived, arrives, gains.arrived]
          simp only [List.append_assoc]
        · by_contra hother
          have page : a.2.1.page = s.page := idle fun rule hrule => hother (by
            rw [Step.action, hrule]
            rfl)
          have waits := gains.waiting
          rw [page] at waits
          exact hmissed (List.self_eq_append_right.mp waits)

/-- The turn of a step takes what is its own, and leaves nothing behind. -/
theorem Anatomy.collected {x y : Clock × World σ} {t : Turn} (anatomy : Anatomy stage runner w x t y)
    (isRunner : IsRunner stage runner) (calm : y.1.isCancelled = false) :
    ∃ new during lost, Counts x.2 (new ++ [t]) y.2 ∧ (∀ u ∈ new, Attributed stage arrived u) ∧
      waiting y.2.page = [] ∧ arrived y.2.page = arrived x.2.page ++ during ∧
      Attributes [t.outcome] during lost ∧ t.outcome.status ≠ .skipped := by
  obtain @⟨stem, old, requests, r, millis, a, d, b, b', emptied, attempted, captured, taken, later, failure,
    outcome, rfl⟩ := anatomy
  have undergone : Undergone stage runner t.place t.stack t.step (a.1, a.2, .empty) r b :=
    undergone_of_attempt isRunner.ends attempted (later.not_isCancelled calm)
  obtain ⟨-, none, before⟩ := collects.taken emptied
  obtain ⟨new, missed, within, own, lost, counts, each, waits, arrives, attributes, logsIn⟩ :=
    undergone.leaves collects does (later.not_isCancelled calm) none
  obtain ⟨⟨more, gains⟩, pictured⟩ := collects.gains_of_captureAfter captured
  obtain ⟨took, emptied', arrives'⟩ := collects.taken taken
  obtain ⟨page, -, -, complained⟩ := stage.complaint_keeps t.place r (d.2, b'.2.2)
  have haction : t.outcome.action = t.step.action := by
    rw [outcome]
    rfl
  have hchildren : t.outcome.children = b.2.2.children := by
    rw [outcome]
    exact complained.trans pictured
  have hrequests : t.outcome.requests = own ++ more := by
    rw [outcome]
    show requests = _
    rw [took, gains.waiting, waits]
  have hran : t.outcome.status ≠ .skipped := by
    rw [outcome]
    exact Trace.status_outcome_ne _ _ _ _ _ _
  refine ⟨new, missed ++ within ++ t.outcome.requests, missed ++ lost,
    counts.turn emptied captured taken, each, ?_, ?_, .one hran (hchildren ▸ attributes) ?_, hran⟩
  · rw [stage.page_closes, page, emptied']
  · rw [stage.page_closes, page, arrives', gains.arrived, arrives, before, stage.page_opens, hrequests]
    simp only [List.append_assoc]
  · rw [haction, hchildren]
    exact logsIn

variable (isRunner : IsRunner stage runner)

include isRunner

/-- A turn goes before what is played after it. -/
theorem Turned.collected {id : String} {depth index : Nat} {x y : Clock × World σ} {z : World σ} {t : Turn}
    {later r : Report} (h : Turned stage runner id stack depth w index step x t y)
    (calm : y.1.isCancelled = false) (hlater : Collected stage waiting arrived y.2 (.ok later) z)
    (outcomes : r.outcomes = t.outcome :: later.outcomes) :
    Collected stage waiting arrived x.2 (.ok r) z := by
  obtain ⟨new, during, lost, counts, each, emptied, arrives, attributes, ran⟩ :=
    (anatomy_of_turn h.taken).collected collects does isRunner calm
  have own : Attributed stage arrived t :=
    ⟨runner, w, x, y, during, lost, isRunner, h.taken, arrives, attributes.covers⟩
  have each' : ∀ u ∈ new ++ [t], Attributed stage arrived u :=
    List.forall_mem_append.mpr ⟨each, List.forall_mem_singleton.mpr own⟩
  have here : ∃ o ∈ r.outcomes, o.status ≠ .skipped := ⟨t.outcome, by simp [outcomes], ran⟩
  cases hlater with
  | unplayed counts' page skipped =>
    have all := counts.trans counts'
    rw [List.append_nil] at all
    have rest := attributes.cons (.of_skipped skipped)
    rw [List.append_nil, List.append_nil, ← outcomes] at rest
    exact .played all each' (by rw [page, emptied]) (by rw [page, arrives]) rest here
  | @played more _ during' lost' _ counts' each'' emptied' arrives' attributes' ran' =>
    refine .played (counts.trans counts') (List.forall_mem_append.mpr ⟨each', each''⟩) emptied' ?_
      (outcomes ▸ attributes.cons attributes') here
    rw [arrives', arrives, List.append_assoc]

/-- A turn after which the others are skipped. -/
theorem Turned.collected_last {id : String} {depth index : Nat} {x y : Clock × World σ} {t : Turn}
    {rest : List Step} {r : Report} (h : Turned stage runner id stack depth w index step x t y)
    (calm : y.1.isCancelled = false)
    (outcomes : r.outcomes = t.outcome :: Report.skippedFrom (index + 1) rest) :
    Collected stage waiting arrived x.2 (.ok r) y.2 := by
  have skipped : Collected stage waiting arrived y.2
      (.ok ⟨Report.skippedFrom (index + 1) rest, false, false, none⟩) y.2 := by
    exact .unplayed (.refl_of rfl rfl) rfl fun o ho => Report.status_of_mem_skippedFrom ho
  exact h.collected collects does isRunner calm skipped outcomes

theorem Played.collected {id : String} {depth index : Nat} {steps : List Step} {x y : Clock × World σ}
    {played : List Turn} {r : Report}
    (h : Played stage runner id stack depth w index steps x played r y)
    (calm : y.1.isCancelled = false) : Collected stage waiting arrived x.2 (.ok r) y.2 := by
  induction h with
  | all => exact .unplayed (.refl_of rfl rfl) rfl (by simp [Report.empty])
  | cancelledBefore seen =>
    rw [seen] at calm
    cases calm
  | onward turned goesOn later ih =>
    exact turned.collected collects does isRunner ((later.before isRunner).not_isCancelled calm)
      (ih calm) rfl
  | fatal turned failure isFatal => exact turned.collected_last collects does isRunner calm rfl
  | cancelled turned failure => exact turned.collected_last collects does isRunner calm rfl
  | stopped turned failure mild own stops => exact turned.collected_last collects does isRunner calm rfl

theorem Entered.collected {id : String} {depth : Nat} {x y : Clock × World σ}
    {e : Exit (Except Failure Report)} (h : Entered stage runner id stack depth w x e y) :
    Collecting stage waiting arrived id stack depth w x e y := by
  rintro calm r rfl
  cases h with
  | refused lines => exact .refused (.refl_of rfl rfl) rfl
  | @played scenario lines lines' z turns report off loaded played =>
    have collected := played.collected collects does isRunner calm
    cases collected with
    | unplayed counts page skipped => exact .unplayed ⟨counts.turns, counts.begun⟩ page skipped
    | played counts each emptied arrives attributes ran =>
      exact .played ⟨counts.turns, counts.begun⟩ each emptied arrives attributes ran
  | parted off loaded left parted => exact absurd rfl (left r)

end

theorem runner_collects (collects : stage.browser.Collects waiting arrived) :
    Does (Collecting stage waiting arrived) (Play.runner stage) := by
  refine runner_does ?_ fun isRunner does _ _ _ _ _ _ _ entered => entered.collected collects does isRunner
  rintro id stack depth w x e - r ⟨⟩
  exact .refused (.refl_of rfl rfl) rfl

end Play

namespace Run

variable {stage : Stage σ} {waiting arrived : σ → List NetworkRequest}

theorem Concludes.arrives {record : RunRecord} {x y : Clock × World σ} (h : Concludes stage record x y)
    (collects : stage.browser.Collects waiting arrived) :
    ∃ more, arrived y.2.page = arrived x.2.page ++ more := by
  obtain ⟨r, z, called, page⟩ := h.page
  rw [page]
  exact collects.finished called

/-- In every run that is never cancelled, the requests that arrive while a step is under way are told in
its outcome or in those of the steps inside it, but for those that a step which makes sure of a login
brings about before the first step of its login scenario. -/
theorem requests_attributed (collects : stage.browser.Collects waiting arrived) (scenario : Scenario)
    (runId : String) (c : Clock) (s : World σ) :
    ∃ record c' s' new, (run stage scenario runId).run c s = (some record, c', s') ∧
      s'.turns = s.turns ++ new ∧
      (c'.isCancelled = false → (∀ t ∈ new, Play.Attributed stage arrived t) ∧
        ∃ during lost more, arrived s'.page = arrived s.page ++ during ++ more ∧
          Covers record.steps during lost) := by
  cases h : (Preflight.check stage.scenarios s.desk scenario).1 with
  | error e =>
    obtain ⟨record, c', s', hrecord, -, -, hsteps, concludes⟩ :=
      conclude_follows stage scenario runId c.now (.refused scenario e) c
        (((opened stage scenario runId s).say (Preflight.check stage.scenarios s.desk scenario).2).say
          [.error ("❌ 预检失败: " ++ e.message)])
    have hrun : (run stage scenario runId).run c s = (some record, c', s') := by
      rw [Timed.run, run_of_error h, hrecord]
    have hturns : s'.turns = s.turns := concludes.turns.trans (turns_opened ..)
    refine ⟨record, c', s', [], hrun, by rw [hturns, List.append_nil], fun _ => ⟨by simp, ?_⟩⟩
    obtain ⟨more, arrives⟩ := concludes.arrives collects
    have page : (opened stage scenario runId s).page = s.page := stage.page_heard ..
    have untouched : Attributes record.steps [] [] := by
      rw [hsteps]
      exact .of_skipped fun o ho => Report.status_of_mem_skippedFrom ho
    refine ⟨[], [], more, ?_, untouched.covers⟩
    rw [arrives, List.append_nil, ← page]
    rfl
  | ok u =>
    obtain ⟨record, c', s', s₀, c₁, s₁, played, report, hrun, begins, hplayed, hsteps, -, concludes⟩ :=
      run_judged h runId c
    obtain ⟨new, hnew, -⟩ := hplayed.row.adds (Play.runner_adds stage) .whole
    refine ⟨record, c', s', new, hrun, by rw [concludes.turns, hnew, begins.turns], fun calm => ?_⟩
    obtain ⟨more, arrives⟩ := concludes.arrives collects
    have collected := hplayed.collected collects (Play.runner_collects collects) .whole
      (concludes.before.not_isCancelled calm)
    cases collected with
    | unplayed counts page skipped =>
      have same : new = [] := List.append_cancel_left (hnew.symm.trans counts.turns)
      have untouched : Attributes record.steps [] [] := hsteps ▸ .of_skipped skipped
      refine ⟨by simp [same], [], [], more, ?_, untouched.covers⟩
      rw [arrives, page, List.append_nil, begins.page]
    | @played new' _ during lost _ counts each emptied arrives' attributes ran =>
      have same : new = new' := List.append_cancel_left (hnew.symm.trans counts.turns)
      refine ⟨same ▸ each, during, lost, more, ?_, hsteps ▸ attributes.covers⟩
      rw [arrives, arrives', begins.page]

end Run

/-- What a page knows of its requests. -/
structure Wire where
  waiting : List NetworkRequest
  arrived : List NetworkRequest

/-- Visiting an address takes one request, and nothing else does. -/
def Wire.visit (url : String) (wire : Wire) : Wire :=
  ⟨wire.waiting ++ [⟨url, "GET", some 200, 0, 0, none⟩],
    wire.arrived ++ [⟨url, "GET", some 200, 0, 0, none⟩]⟩

/-- A browser that counts its visits, and is at the page of a login after each. -/
def Browser.wired : Browser Wire where
  goto url := .look fun _ wire => .save (wire.visit url) (.done (.ok ()))
  currentUrl := .done (.ok "http://app.test/login")
  probe _ := .done (.ok .missing)
  perform selector _ := .done (.error (.noSuchElement selector))
  evaluate _ := .done (.ok .null)
  screenshot _ := .done (.ok [])
  snapshot := .done (.ok .empty)
  restore _ := .done (.ok ())
  takeRequests := .look fun _ wire => .save ⟨[], wire.arrived⟩ (.done wire.waiting)
  finishRecording := .done (.ok none)
  close := .done (.ok ())

theorem Browser.collects_wired : Browser.wired.Collects Wire.waiting Wire.arrived where
  offered := by
    intro α call offered w c s e y ran
    cases offered with
    | goto url =>
      cases ran
      exact ⟨[⟨url, "GET", some 200, 0, 0, none⟩], rfl, rfl⟩
    | _ =>
      cases ran
      exact ⟨[], .refl _⟩
  taken := by
    intro w c s requests y ran
    cases ran
    exact ⟨rfl, rfl, rfl⟩
  finished := by
    intro w c s e y ran
    cases ran
    exact ⟨[], (List.append_nil _).symm⟩

def Stage.wired (scenarios : List Scenario) : Stage Wire where
  toBench := (Stage.bare scenarios).toBench
  browser := .wired
  scenarios := .memory scenarios
  sessions := .memory
  sink := .memory
  listening := false
  epoch := ⟨0, 0⟩

namespace Run

open Preflight (nowhere)

def visiting : Scenario := ⟨"a", none, none, none, [.ofInstruction (.goto "http://app.test/inner")]⟩

def touring : Scenario :=
  ⟨"r", none, none, none,
    [.ofInstruction (.runScenario "a"), .ofInstruction (.goto "http://app.test/outer")]⟩

theorem requests_attributed_touring :
    ∃ record c s during more,
      (run (.wired [visiting]) touring "1").run .start (.ofPage ⟨[], []⟩ nowhere) = (some record, c, s) ∧
      c.isCancelled = false ∧ s.page.arrived = during ++ more ∧ during.length = 2 ∧
      Covers record.steps during [] := by
  have collects : (Stage.wired [visiting]).browser.Collects Wire.waiting Wire.arrived :=
    Browser.collects_wired
  obtain ⟨record, c, s, new, hrun, -, law⟩ :=
    requests_attributed collects touring "1" .start (.ofPage ⟨[], []⟩ nowhere)
  have hran : ((run (.wired [visiting]) touring "1").run .start
      (.ofPage ⟨[], []⟩ nowhere)).2.1.isCancelled = false ∧
      ((run (.wired [visiting]) touring "1").run .start (.ofPage ⟨[], []⟩ nowhere)).1.map
        (fun r => ((Outcome.requestsIn r.steps).length, (Outcome.keptIn 0 r.steps).map (·.2.action))) =
        some (2, [.goto, .runScenario, .goto]) := by decide +kernel
  rw [hrun, Option.map_some, Option.some.injEq, Prod.mk.injEq] at hran
  obtain ⟨calm, htold, hactions⟩ := hran
  obtain ⟨-, during, lost, more, arrives, covers⟩ := law calm
  have whole : lost = [] := by
    refine covers.whole fun p hp logs => ?_
    have hmem : p.2.action ∈ (Outcome.keptIn 0 record.steps).map (·.2.action) := List.mem_map_of_mem hp
    rw [hactions, logs] at hmem
    simp at hmem
  subst whole
  have hlength := covers.told.length_eq
  rw [List.append_nil, htold] at hlength
  exact ⟨record, c, s, during, more, hrun, calm, arrives, hlength, covers⟩

/-- Not every request is told. Here a step that makes sure of a login visits its page, and the request
is thrown away when the login scenario begins. -/
theorem not_requests_attributed :
    ¬ ∀ (stage : Stage Wire) (scenario : Scenario) (c : Clock) (record : RunRecord) (c' : Clock)
      (s' : World Wire), stage.browser.Collects Wire.waiting Wire.arrived →
      stage.browser.finishRecording = .done (.ok none) →
      (run stage scenario "1").run c (.ofPage ⟨[], []⟩ nowhere) = (some record, c', s') →
      c'.isCancelled = false → s'.page.arrived.Perm (Outcome.requestsIn record.steps) := by
  intro law
  have hran : ((run (.wired [idling]) entering "1").run .start
      (.ofPage ⟨[], []⟩ nowhere)).2.1.isCancelled = false ∧
      ((run (.wired [idling]) entering "1").run .start
        (.ofPage ⟨[], []⟩ nowhere)).2.2.page.arrived.length = 2 ∧
      ((run (.wired [idling]) entering "1").run .start (.ofPage ⟨[], []⟩ nowhere)).1.map
        (fun r => (Outcome.requestsIn r.steps).length) = some 1 := by decide +kernel
  generalize hrun :
    (run (.wired [idling]) entering "1").run .start (.ofPage ⟨[], []⟩ nowhere) = res at hran
  obtain ⟨_ | record, c', s'⟩ := res
  · cases hran.2.2
  obtain ⟨calm, harrived, htold⟩ := hran
  have all := law _ _ _ _ _ _ Browser.collects_wired rfl hrun calm
  have hlength := all.length_eq
  have hone : (Outcome.requestsIn record.steps).length = 1 := Option.some.inj htold
  rw [hone] at hlength
  simp only at harrived
  omega

end Run

end Rehearsal
