import Rehearsal.Proofs.Accounting
import Rehearsal.Proofs.LoginCourse
import Rehearsal.Proofs.Transparency
import Rehearsal.Proofs.WrittenValues

/-! # The reason that is given for a failure

A scenario that was played and failed has a failure in it that counts. The reason that its report gives,
and that the step passes on that had it played, is the first failure of all. This is not the first that
counts where an optional step failed before it and the playing went on.
-/
namespace Rehearsal

variable {σ : Type} {stage : Stage σ}

namespace Report

/-- The text that says which step failed, and with what error. -/
def blame (index : Nat) (action : Action) (error : String) : String :=
  "步骤#" ++ Text.decimal (index + 1) ++ " (" ++ action.word ++ "): " ++ error

/-- The number of the step is read back: its digits come after three characters and before a blank. -/
theorem number_blame (index : Nat) (action : Action) (error : String) :
    Json.Tree.ofDigits (Json.Tree.digitsOf ((blame index action error).toList.drop 3)).1 = index + 1 := by
  have spelled : (blame index action error).toList.drop 3 =
      Text.digits (index + 1) ++ ' ' :: '(' :: (action.word ++ "): " ++ error).toList := by
    simp [blame, Text.toList_decimal]
  rw [spelled, Json.Tree.digitsOf_append ?_ (Text.isDigits_digits _), Text.ofDigits_digits]
  intro c hc
  cases hc
  decide

/-- Texts that are the same tell of the same step. -/
theorem blame_inj {i j : Nat} {a a' : Action} {text text' : String}
    (h : blame i a text = blame j a' text') : i = j := by
  have hi := number_blame i a text
  rw [h, number_blame] at hi
  omega

end Report

open Report (blame)

/-- Turn number `i` is the first that failed of a step of the kind `p`, and it failed with `e`. -/
structure FirstFailure (p : Step → Prop) (played : List Turn) (i : Nat) (t : Turn) (e : Failure) : Prop where
  here : played[i]? = some t
  failure : t.failure = some e
  kind : p t.step
  before : ∀ k < i, ∀ u, played[k]? = some u → u.failure.isSome = true → ¬ p u.step

namespace FirstFailure

variable {p q : Step → Prop} {played : List Turn} {i j : Nat} {t u : Turn} {e f : Failure}

theorem exists_of_mem (h : ∃ t ∈ played, t.failure.isSome = true ∧ p t.step) :
    ∃ i t e, FirstFailure p played i t e := by
  classical
  let fits : Turn → Bool := fun t => t.failure.isSome && decide (p t.step)
  obtain ⟨v, hv, hfailed, hkind⟩ := h
  have found : (played.find? fits).isSome = true :=
    List.find?_isSome.mpr ⟨v, hv, by simp [fits, hfailed, hkind]⟩
  obtain ⟨t, ht⟩ := Option.isSome_iff_exists.mp found
  obtain ⟨hfits, i, hi, rfl, hbefore⟩ := List.find?_eq_some_iff_getElem.mp ht
  simp only [fits, Bool.and_eq_true, decide_eq_true_eq] at hfits
  obtain ⟨e, he⟩ := Option.isSome_iff_exists.mp hfits.1
  refine ⟨i, played[i], e, List.getElem?_eq_getElem hi, he, hfits.2, ?_⟩
  intro k hk u hu hu' hkind
  obtain ⟨hlength, rfl⟩ := List.getElem?_eq_some_iff.mp hu
  have unfit := hbefore k hk
  simp [fits, hu', hkind] at unfit

/-- What is first of more kinds does not come later. -/
theorem le (h : FirstFailure p played i t e) (h' : FirstFailure q played j u f)
    (wider : ∀ s, q s → p s) : i ≤ j := by
  by_contra hlt
  have failed : u.failure.isSome = true := by
    rw [h'.failure]
    rfl
  exact h.before j (by omega) u h'.here failed (wider _ h'.kind)

theorem unique (h : FirstFailure p played i t e) (h' : FirstFailure q played i u f) : t = u ∧ e = f := by
  obtain rfl : t = u := Option.some.inj (h.here.symm.trans h'.here)
  exact ⟨rfl, Option.some.inj (h.failure.symm.trans h'.failure)⟩

end FirstFailure

section

variable {steps : List Step} {played : List Turn} {r : Report} {i j : Nat} {t u : Turn} {e f : Failure}

theorem Lists.step_at {os : List Outcome} (h : Lists steps played os) (ht : played[i]? = some t) :
    steps[i]? = some t.step := by
  have hi : i < played.length := (List.getElem?_eq_some_iff.mp ht).1
  have hstep : (played.map (·.step))[i]? = some t.step := by rw [List.getElem?_map, ht, Option.map_some]
  rw [h.upTo, List.getElem?_take_of_lt hi] at hstep
  exact hstep

/-- No outcome before that of the first turn that failed is one of a failure. -/
theorem Lists.find?_isFailed {os : List Outcome} (h : Lists steps played os)
    (first : FirstFailure (fun _ => True) played i t e) : os.find? (·.isFailed) = some t.outcome := by
  have told : ∀ {k : Nat} {v : Turn}, played[k]? = some v → v.outcome.isFailed = v.failure.isSome :=
    fun hv => (h.told _ (List.mem_of_getElem? hv)).isFailed
  obtain ⟨hi, hat⟩ := List.getElem?_eq_some_iff.mp first.here
  have among : (played.map (·.outcome)).find? (·.isFailed) = some t.outcome := by
    rw [List.find?_eq_some_iff_getElem]
    constructor
    · rw [told first.here, first.failure]
      rfl
    · refine ⟨i, by simpa using hi, by simp [hat], ?_⟩
      intro k hk
      have hk' : played[k]? = some played[k] := List.getElem?_eq_getElem (by omega)
      have fine := first.before k hk _ hk'
      simp only [List.getElem_map, told hk']
      simpa using fine
  rw [h.outcomes, List.find?_append, among]
  rfl

/-- The reason is that of the turn that failed first, whatever the options of its step are. -/
theorem Lists.reason (h : Lists steps played r.outcomes)
    (first : FirstFailure (fun _ => True) played i t e) :
    r.reason = blame i t.step.action e.message := by
  have told := h.told t (List.mem_of_getElem? first.here)
  rw [Report.reason, h.find?_isFailed first]
  simp only
  rw [told.index, h.placed i t first.here, told.action, told.error, first.failure]
  rfl

/-- What there is to say of the reason of a report that failed, when turn number `i` failed first of all
and number `j` first of those that count. -/
structure Report.Reasoned (r : Report) (played : List Turn) (i : Nat) (t : Turn) (e : Failure) (j : Nat)
    (u : Turn) (f : Failure) : Prop where
  first : FirstFailure (fun _ => True) played i t e
  counting : FirstFailure (fun s => s.options.optional = false) played j u f
  /-- Every failure before the first that counts was tolerated. -/
  tolerated : ∀ k < j, ∀ v g, played[k]? = some v → v.failure = some g →
    v.step.options.optional = true ∧ v.step.options.continueOnError = true ∧ g.isFatal = false ∧
      g ≠ .cancelled
  reason : r.reason = blame i t.step.action e.message
  /-- The failure that counts is named exactly if it is the first of all. -/
  counts : r.reason = blame j u.step.action f.message ↔ t.step.options.optional = false

theorem Lists.named_iff (h : Lists steps played r.outcomes)
    (first : FirstFailure (fun _ => True) played i t e)
    (counting : FirstFailure (fun s => s.options.optional = false) played j u f) :
    r.reason = blame j u.step.action f.message ↔ t.step.options.optional = false := by
  rw [h.reason first]
  constructor
  · intro same
    obtain rfl := Report.blame_inj same
    obtain ⟨rfl, -⟩ := first.unique counting
    exact counting.kind
  · intro own
    have alike : FirstFailure (fun s => s.options.optional = false) played i t e :=
      ⟨first.here, first.failure, own, fun k hk v hv hfailed _ => first.before k hk v hv hfailed trivial⟩
    obtain rfl : i = j := Nat.le_antisymm (alike.le counting fun _ h => h) (counting.le alike fun _ h => h)
    obtain ⟨rfl, rfl⟩ := alike.unique counting
    rfl

end

namespace Play

variable {runner : Runner σ} {stack : CallStack} {id : String} {depth : Nat} {w : Watch}

/-- A report that failed, but not by a fatal failure or by being cancelled, has its reason. -/
theorem Played.reasoned {steps : List Step} {x y : Clock × World σ} {played : List Turn} {r : Report}
    (h : Played stage runner id stack depth w 0 steps x played r y) (failed : r.failed = true)
    (mild : r.fatal = none) (calm : r.cancelled = false) :
    ∃ i t e j u f, r.Reasoned played i t e j u f := by
  obtain ⟨v, hv, hfailed, hcounts⟩ := (h.failed_iff mild calm).mp failed
  have own : v.step.options.optional = false := by simpa [Step.counts] using hcounts
  obtain ⟨i, t, e, first⟩ :=
    FirstFailure.exists_of_mem (p := fun _ => True) ⟨v, hv, hfailed, trivial⟩
  obtain ⟨j, u, f, counting⟩ :=
    FirstFailure.exists_of_mem (p := fun s => s.options.optional = false) ⟨v, hv, hfailed, own⟩
  refine ⟨i, t, e, j, u, f, first, counting, ?_, h.lists.reason first,
    h.lists.named_iff first counting⟩
  intro k hk v g hv hg
  have optional : v.step.options.optional = true := by
    have tolerated := counting.before k hk v hv (by rw [hg]; rfl)
    simpa using tolerated
  -- The turn that counts comes later, so that this one is not the last.
  obtain ⟨hj, -⟩ := List.getElem?_eq_some_iff.mp counting.here
  have earlier : v ∈ played.dropLast := by
    refine List.mem_of_getElem? (i := k) ?_
    rw [List.getElem?_dropLast, if_pos (by omega), hv]
  exact ⟨optional, h.policy.goesOn v earlier g hg⟩

/-- A step that had a scenario played comes to what the report means for it. -/
theorem perform_of_done {place : Place} {x y : Clock × World σ} {report : Report}
    (h : runner id stack place.depth w x.1 x.2 = (.done (.ok report), y)) (trace : Trace) :
    (Login.perform runner place stack id).run w x.1 (x.2, trace) =
      (.done (report.settle id), y.1, y.2,
        { trace with children := trace.children ++ report.outcomes }) := by
  show (Timed.onFirst (runner id stack place.depth) >>=
    ExceptT.bindCont fun report => Work.settle report id) w x.1 (x.2, trace) = _
  rw [Timed.bind_of_done (Timed.onFirst_of_done h trace)]
  exact settle_apply report id y.1 y.2 trace

/-- A runner that reports on a scenario had its steps played with another runner of the stage. -/
theorem IsRunner.entered (isRunner : IsRunner stage runner) {x y : Clock × World σ} {report : Report}
    (h : runner id stack depth w x.1 x.2 = (.done (.ok report), y)) :
    ∃ inner, IsRunner stage inner ∧ enter stage inner id stack depth w x.1 x.2 = (.done (.ok report), y) := by
  cases isRunner with
  | whole => exact ⟨_, .nested _, h⟩
  | nested fuel =>
    cases fuel with
    | zero => cases h
    | succ fuel => exact ⟨_, .nested fuel, h⟩

/-- The reason of a scenario that failed, as the step has it that had the scenario played, be it only for
that or to log in. -/
theorem reason_of_failed (isRunner : IsRunner stage runner) {x y : Clock × World σ} {report : Report}
    (ran : runner id stack depth w x.1 x.2 = (.done (.ok report), y))
    (failed : report.failed = true) (mild : report.fatal = none) (calm : report.cancelled = false) :
    ∃ inner scenario s₀ s₁ played i t e j u f, IsRunner stage inner ∧
      (stage.scenarios.load x.2.desk id).1 = .ok (some scenario) ∧
      turns stage inner scenario.id (stack.push id) (depth + 1) 0 (scenario.steps.take played.length) w
        x.1 s₀ = (.done played, y.1, s₁) ∧
      Lists scenario.steps played report.outcomes ∧ report.Reasoned played i t e j u f ∧
      (∀ place trace, place.depth = depth →
        (Login.perform runner place stack id).run w x.1 (x.2, trace) =
          (.done (.error (.nested id (blame i t.step.action e.message))), y.1, y.2,
            { trace with children := trace.children ++ report.outcomes })) ∧
      ∀ place login timeout a b r, login.loginScenario = id →
        (Login.ensure stage runner place stack login timeout).run w a.1 a.2 = (.done r, b) →
        ∃ acts, Login.Happens stage place runner stack login timeout w acts a b ∧
          Login.Course (Login.key stage login.stateName) id acts r ∧
          (.plays (.ok report) ∈ acts →
            r = .error (.login id (Failure.nested id (blame i t.step.action e.message)).message)) := by
  obtain ⟨inner, isInner, entered⟩ := isRunner.entered ran
  obtain ⟨scenario, s₀, s₁, -, load, steps, -, -⟩ := steps_of_enter entered
  obtain ⟨played, hplayed⟩ := played_of_done steps
  obtain ⟨i, t, e, j, u, f, reasoned⟩ := hplayed.reasoned failed mild calm
  have settles : report.settle id = .error (.nested id (blame i t.step.action e.message)) := by
    rw [Report.settle, mild, calm, failed, reasoned.reason]
    rfl
  refine ⟨inner, scenario, s₀, s₁, played, i, t, e, j, u, f, isInner, load, hplayed.turns, hplayed.lists,
    reasoned, ?_, ?_⟩
  · rintro place trace rfl
    rw [perform_of_done ran trace, settles]
  · rintro place login timeout a b r rfl hensure
    obtain ⟨acts, happens, course⟩ :=
      Login.course_of_done stage place runner stack login timeout hensure
    refine ⟨acts, happens, course, ?_⟩
    intro plays
    have passed := course.fails _ _ plays settles
    simpa [Failure.isFatal] using passed

end Play

namespace Run

open Preflight (nowhere)

/-- Two elements are clicked that are never there. Only the first of them need not be. -/
def fumbling : Scenario :=
  ⟨"a", none, none, none,
    [⟨none, .interact .click "#banner", ⟨true, true, some 0⟩⟩,
      ⟨none, .interact .click "#submit", ⟨false, false, some 0⟩⟩]⟩

/-- The report, where a scenario was played to its end. -/
def reported : Exit (Except Failure Report) → Option Report
  | .done (.ok report) => some report
  | _ => none

theorem report_fumbling : ∃ report y,
    Play.runner (.bare [fumbling]) "a" (.root "r") 0 .none .start (.ofPage () nowhere) =
      (.done (.ok report), y) ∧
    report.failed = true ∧ report.fatal = none ∧ report.cancelled = false ∧
    report.reason = blame 0 .click "元素未找到: 已依次尝试 [#banner] (#banner: 未附加)" := by
  have hran : (reported (Play.runner (.bare [fumbling]) "a" (.root "r") 0 .none .start
      (.ofPage () nowhere)).1).map (fun r => (r.failed, r.fatal, r.cancelled, r.reason)) =
        some (true, none, false, blame 0 .click "元素未找到: 已依次尝试 [#banner] (#banner: 未附加)") := by
    decide +kernel
  generalize Play.runner (.bare [fumbling]) "a" (.root "r") 0 .none .start (.ofPage () nowhere) = res at hran
  obtain ⟨(e | report) | _, y⟩ := res
  case done.ok =>
    obtain ⟨failed, fatal, cancelled, reason⟩ : _ ∧ _ ∧ _ ∧ _ := by simpa [reported] using hran
    exact ⟨report, y, rfl, failed, fatal, cancelled, reason⟩
  all_goals cases hran

/-- The reason names the click that need not be, and not the one that counts. -/
theorem reason_of_failed_fumbling : ∃ report y played t e j u f,
    Play.runner (.bare [fumbling]) "a" (.root "r") 0 .none .start (.ofPage () nowhere) =
      (.done (.ok report), y) ∧
    report.failed = true ∧ report.fatal = none ∧ report.cancelled = false ∧
    report.Reasoned played 0 t e j u f ∧ report.reason ≠ blame j u.step.action f.message := by
  obtain ⟨report, y, ran, failed, mild, calm, reason⟩ := report_fumbling
  obtain ⟨-, scenario, -, -, played, i, t, e, j, u, f, -, load, -, lists, reasoned, -, -⟩ :=
    Play.reason_of_failed (x := (.start, .ofPage () nowhere)) .whole ran failed mild calm
  obtain rfl : fumbling = scenario := Option.some.inj (Except.ok.inj load)
  obtain rfl := Report.blame_inj (reasoned.reason.symm.trans reason)
  have tolerated : t.step.options.optional = true := by
    have hstep : fumbling.steps[0]? = some t.step := lists.step_at reasoned.first.here
    rw [← Option.some.inj hstep]
  refine ⟨report, y, played, t, e, j, u, f, ran, failed, mild, calm, reasoned, ?_⟩
  intro named
  have counts := reasoned.counts.mp named
  rw [tolerated] at counts
  cases counts

/-- The reason need not name any failure that counts. -/
theorem not_reason_counts :
    ¬ ∀ (stage : Stage Unit) (id : String) (scenario : Scenario) (c : Clock) (s : World Unit)
      (report : Report) (y : Clock × World Unit),
      Play.runner stage id (.root "r") 0 .none c s = (.done (.ok report), y) →
      (stage.scenarios.load s.desk id).1 = .ok (some scenario) →
      report.failed = true → report.fatal = none → report.cancelled = false →
      ∃ i step o error, scenario.steps[i]? = some step ∧ step.options.optional = false ∧
        report.outcomes[i]? = some o ∧ o.error = some error ∧
        report.reason = blame i step.action error := by
  intro law
  obtain ⟨report, y, ran, failed, mild, calm, reason⟩ := report_fumbling
  obtain ⟨i, step, o, error, hstep, counts, -, -, named⟩ :=
    law (.bare [fumbling]) "a" fumbling .start (.ofPage () nowhere) report y ran rfl failed mild calm
  obtain rfl := Report.blame_inj (reason.symm.trans named)
  cases hstep
  cases counts

end Run

end Rehearsal
