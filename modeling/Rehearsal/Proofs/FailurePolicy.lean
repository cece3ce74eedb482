import Rehearsal.Proofs.Playing

/-! # What a failure means for the steps after it

The steps of a scenario are played in their order until one ends the playing: by a fatal failure, by
being cancelled, or by failing without leave to go on. A cancelled run ends before the next step.
-/
namespace Rehearsal

variable {σ : Type}

/-- No step is played after this one. -/
def Turn.Halts (t : Turn) : Prop :=
  ∃ e, t.failure = some e ∧ (e.isFatal = true ∨ e = .cancelled ∨ t.step.continues = false)

theorem Turn.halts_of_cancelled {t : Turn} (h : t.failure = some .cancelled) : t.Halts :=
  ⟨_, h, .inr (.inl rfl)⟩

/-- The outcome says of which step it is, and whether and why that failed. -/
structure Turn.Told (t : Turn) : Prop where
  index : t.outcome.index = t.place.index
  action : t.outcome.action = t.step.action
  name : t.outcome.name = t.step.name
  status : t.outcome.status = if t.failure.isSome then .failed else .success
  error : t.outcome.error = t.failure.map Failure.message

theorem Turn.Told.isFailed {t : Turn} (h : t.Told) : t.outcome.isFailed = t.failure.isSome := by
  unfold Outcome.isFailed
  rw [h.status]
  cases t.failure with
  | none => rfl
  | some e => rfl

namespace Play

variable (stage : Stage σ) (runner : Runner σ) (id : String) (stack : CallStack) (depth : Nat)

/-- Plays steps one after another, whatever becomes of them. -/
def turns : Nat → List Step → Timed (World σ) (List Turn)
  | _, [] => pure []
  | index, s :: rest => do
    let (outcome, failure) ← turn stage runner ⟨id, index, depth⟩ stack s
    return ⟨⟨id, index, depth⟩, stack, s, outcome, failure⟩ :: (← turns (index + 1) rest)

/-- A step that was played from one moment to another. -/
def Turned (w : Watch) (index : Nat) (s : Step) (x : Clock × World σ) (t : Turn)
    (y : Clock × World σ) : Prop :=
  t.place = ⟨id, index, depth⟩ ∧ t.stack = stack ∧ t.step = s ∧
    turn stage runner t.place stack s w x.1 x.2 = (.done (t.outcome, t.failure), y)

/-- Every way the playing of steps can go on and come to its end. -/
inductive Played (w : Watch) : Nat → List Step → Clock × World σ → List Turn → Report →
    Clock × World σ → Prop
  | all {index : Nat} {x : Clock × World σ} : Played w index [] x [] .empty x
  | cancelledBefore {index : Nat} {s : Step} {rest : List Step} {x : Clock × World σ}
    (seen : x.1.isCancelled = true) :
    Played w index (s :: rest) x [] (.cancelledBefore index (s :: rest)) x
  | onward {index : Nat} {s : Step} {rest : List Step} {x y z : Clock × World σ} {t : Turn}
    {played : List Turn} {r : Report} (turned : Turned stage runner id stack depth w index s x t y)
    (goesOn : ¬ t.Halts) (later : Played w (index + 1) rest y played r z) :
    Played w index (s :: rest) x (t :: played) (r.after t.outcome (t.failure.isSome && s.counts)) z
  | fatal {index : Nat} {s : Step} {rest : List Step} {x y : Clock × World σ} {t : Turn} {e : Failure}
    (turned : Turned stage runner id stack depth w index s x t y) (failure : t.failure = some e)
    (isFatal : e.isFatal = true) :
    Played w index (s :: rest) x [t]
      ⟨t.outcome :: Report.skippedFrom (index + 1) rest, true, false, some e⟩ y
  | cancelled {index : Nat} {s : Step} {rest : List Step} {x y : Clock × World σ} {t : Turn}
    (turned : Turned stage runner id stack depth w index s x t y)
    (failure : t.failure = some .cancelled) :
    Played w index (s :: rest) x [t]
      ⟨t.outcome :: Report.skippedFrom (index + 1) rest, false, true, none⟩ y
  | stopped {index : Nat} {s : Step} {rest : List Step} {x y : Clock × World σ} {t : Turn} {e : Failure}
    (turned : Turned stage runner id stack depth w index s x t y) (failure : t.failure = some e)
    (mild : e.isFatal = false) (own : e ≠ .cancelled) (stops : s.continues = false) :
    Played w index (s :: rest) x [t]
      ⟨t.outcome :: Report.skippedFrom (index + 1) rest, s.counts, false, none⟩ y

variable {stage runner id stack depth}

/-- The playing of steps ends at the first of them or in the middle of its turn, or goes on after it. -/
theorem stepsFrom_cases {w : Watch} {index : Nat} {s : Step} {rest : List Step} {c c' : Clock}
    {x x' : World σ} {e : Exit Report}
    (h : stepsFrom stage runner id stack depth index (s :: rest) w c x = (e, c', x')) :
    (∃ played r, e = .done r ∧
      Played stage runner id stack depth w index (s :: rest) (c, x) played r (c', x') ∧
      ∀ t ∈ played, t.Halts) ∨
    (∃ e', turn stage runner ⟨id, index, depth⟩ stack s w c x = (e', c', x') ∧ (∀ a, e' ≠ .done a) ∧
      ∀ r, e ≠ .done r) ∨
    ∃ t y, Turned stage runner id stack depth w index s (c, x) t y ∧ ¬ t.Halts ∧
      (stepsFrom stage runner id stack depth (index + 1) rest >>= fun r =>
        pure (r.after t.outcome (t.failure.isSome && s.counts))) w y.1 y.2 = (e, c', x') := by
  obtain ⟨_, c₁, x₁, hseen, h⟩ | ⟨e', hseen, left, -⟩ := Timed.bind_cases h
  case inr =>
    cases hseen
    exact absurd rfl (left _)
  cases hseen
  cases hcancelled : c.isCancelled with
  | true =>
    rw [hcancelled] at h
    cases h
    exact .inl ⟨[], _, rfl, .cancelledBefore hcancelled, by simp⟩
  | false =>
    rw [hcancelled] at h
    obtain ⟨⟨outcome, failure⟩, c₁, x₁, hturn, h⟩ | ⟨e', hturn, left', left⟩ := Timed.bind_cases h
    case inr => exact .inr (.inl ⟨e', hturn, left', left⟩)
    have turned : Turned stage runner id stack depth w index s (c, x)
        ⟨⟨id, index, depth⟩, stack, s, outcome, failure⟩ (c₁, x₁) := ⟨rfl, rfl, rfl, hturn⟩
    cases failure with
    | none =>
      refine .inr (.inr ⟨_, _, turned, ?_, h⟩)
      rintro ⟨e, he, -⟩
      cases he
    | some f =>
      simp only at h
      split at h
      · rename_i hfatal
        cases h
        exact .inl ⟨_, _, rfl, .fatal turned rfl hfatal,
          List.forall_mem_singleton.mpr ⟨_, rfl, .inl hfatal⟩⟩
      rename_i hmild
      split at h
      · rename_i hown
        cases h
        subst hown
        exact .inl ⟨_, _, rfl, .cancelled turned rfl,
          List.forall_mem_singleton.mpr (Turn.halts_of_cancelled rfl)⟩
      rename_i hown
      split at h
      · rename_i hcontinues
        refine .inr (.inr ⟨_, _, turned, ?_, h⟩)
        rintro ⟨f', hf, hhalts⟩
        cases hf
        rcases hhalts with hfatal | rfl | hstops
        · exact hmild hfatal
        · exact hown rfl
        · rw [hcontinues] at hstops
          cases hstops
      · rename_i hstops
        cases h
        have hstops := Bool.eq_false_iff.mpr hstops
        exact .inl ⟨_, _, rfl, .stopped turned rfl (Bool.eq_false_iff.mpr hmild) hown hstops,
          List.forall_mem_singleton.mpr ⟨_, rfl, .inr (.inr hstops)⟩⟩

theorem played_of_done {w : Watch} {index : Nat} {steps : List Step} {c c' : Clock}
    {x x' : World σ} {r : Report}
    (h : stepsFrom stage runner id stack depth index steps w c x = (.done r, c', x')) :
    ∃ played, Played stage runner id stack depth w index steps (c, x) played r (c', x') := by
  induction steps generalizing index c x r with
  | nil =>
    cases h
    exact ⟨[], .all⟩
  | cons s rest ih =>
    rcases stepsFrom_cases h with ⟨played, _, ⟨⟩, ended, -⟩ | ⟨_, -, -, left⟩ |
      ⟨t, y, turned, goesOn, h⟩
    · exact ⟨played, ended⟩
    · exact absurd rfl (left r)
    · obtain ⟨report, c₁, x₁, hrest, h⟩ := Timed.done_of_bind h
      cases h
      obtain ⟨played, later⟩ := ih hrest
      exact ⟨_, .onward turned goesOn later⟩

theorem told_of_step {place : Place} {s : Step} {w : Watch} {c c' : Clock} {x x' : World σ}
    {outcome : Outcome} {failure : Option Failure}
    (h : step stage runner place stack s w c x = (.done (outcome, failure), c', x')) :
    (⟨place, stack, s, outcome, failure⟩ : Turn).Told := by
  obtain ⟨started, c₁, x₁, -, h⟩ := Timed.done_of_bind h
  obtain ⟨number, c₂, x₂, -, h⟩ := Timed.done_of_bind h
  obtain ⟨-, c₃, x₃, -, h⟩ := Timed.done_of_bind h
  obtain ⟨⟨⟨failed, requests⟩, trace⟩, c₄, x₄, -, h⟩ := Timed.done_of_bind h
  obtain ⟨ended, c₅, x₅, -, h⟩ := Timed.done_of_bind h
  cases h
  exact ⟨rfl, rfl, rfl, rfl, rfl⟩

theorem Turned.told {w : Watch} {index : Nat} {s : Step} {x y : Clock × World σ} {t : Turn}
    (h : Turned stage runner id stack depth w index s x t y) : t.Told := by
  obtain ⟨place, stack', s', outcome, failure⟩ := t
  obtain ⟨c', x'⟩ := y
  obtain ⟨rfl, rfl, rfl, h⟩ := h
  obtain ⟨-, c₁, x₁, -, h⟩ := Timed.done_of_bind h
  obtain ⟨-, c₂, x₂, -, h⟩ := Timed.done_of_bind h
  obtain ⟨⟨outcome', failure'⟩, c₃, x₃, hstep, h⟩ := Timed.done_of_bind h
  obtain ⟨-, c₄, x₄, -, h⟩ := Timed.done_of_bind h
  obtain ⟨-, c₅, x₅, -, h⟩ := Timed.done_of_bind h
  obtain ⟨-, c₆, x₆, -, h⟩ := Timed.done_of_bind h
  have hpair : (outcome', failure') = (outcome, failure) := by
    cases h
    rfl
  obtain ⟨rfl, rfl⟩ := Prod.mk.inj hpair
  exact told_of_step hstep

/-- A fatal failure of the last step that was played ended the playing. -/
def FatalEnd (played : List Turn) (e : Failure) : Prop :=
  ∃ t, played.getLast? = some t ∧ t.failure = some e ∧ e.isFatal = true

/-- The last step that was played was cancelled, or there are steps left though it did not end the
playing. -/
def CancelledEnd (steps : List Step) (played : List Turn) : Prop :=
  (∃ t, played.getLast? = some t ∧ t.failure = some .cancelled) ∨
    (played.length < steps.length ∧ ∀ t, played.getLast? = some t → ¬ t.Halts)

section

variable {w : Watch} {index : Nat} {steps : List Step} {x y : Clock × World σ} {played : List Turn}
  {r : Report}

theorem Played.told (h : Played stage runner id stack depth w index steps x played r y) :
    ∀ t ∈ played, t.Told := by
  induction h with
  | all => simp
  | cancelledBefore seen => simp
  | onward turned goesOn later ih =>
    intro t ht
    rcases List.mem_cons.mp ht with rfl | ht
    · exact turned.told
    · exact ih t ht
  | fatal turned => exact fun t ht => List.mem_singleton.mp ht ▸ turned.told
  | cancelled turned => exact fun t ht => List.mem_singleton.mp ht ▸ turned.told
  | stopped turned => exact fun t ht => List.mem_singleton.mp ht ▸ turned.told

theorem Played.upTo (h : Played stage runner id stack depth w index steps x played r y) :
    played.length ≤ steps.length ∧ played.map (·.step) = steps.take played.length := by
  induction h with
  | all => exact ⟨Nat.le_refl _, rfl⟩
  | cancelledBefore seen => exact ⟨Nat.zero_le _, rfl⟩
  | onward turned goesOn later ih =>
    refine ⟨Nat.succ_le_succ ih.1, ?_⟩
    rw [List.map_cons, List.length_cons, List.take_succ_cons, ih.2, turned.2.2.1]
  | fatal turned => exact ⟨by simp, by simp [turned.2.2.1]⟩
  | cancelled turned => exact ⟨by simp, by simp [turned.2.2.1]⟩
  | stopped turned => exact ⟨by simp, by simp [turned.2.2.1]⟩

/-- What was played, were it all there is to play, is played in the same way. -/
theorem Played.turns (h : Played stage runner id stack depth w index steps x played r y) :
    turns stage runner id stack depth index (steps.take played.length) w x.1 x.2 =
      (.done played, y) := by
  have hstep : ∀ {index : Nat} {s : Step} {rest : List Step} {x y z : Clock × World σ} {t : Turn}
      {others : List Turn}, Turned stage runner id stack depth w index s x t y →
      Play.turns stage runner id stack depth (index + 1) rest w y.1 y.2 = (.done others, z) →
      Play.turns stage runner id stack depth index (s :: rest) w x.1 x.2 =
        (.done (t :: others), z) := by
    intro index s rest x y z t others turned hrest
    obtain ⟨place, stack', s', outcome, failure⟩ := t
    obtain ⟨rfl, rfl, rfl, hturn⟩ := turned
    rw [Play.turns, Timed.bind_of_done hturn]
    simp only
    rw [Timed.bind_of_done hrest]
    rfl
  induction h with
  | all => rfl
  | cancelledBefore seen => rfl
  | onward turned goesOn later ih => exact hstep turned ih
  | fatal turned => exact hstep turned rfl
  | cancelled turned => exact hstep turned rfl
  | stopped turned => exact hstep turned rfl

theorem Played.outcomes (h : Played stage runner id stack depth w index steps x played r y) :
    r.outcomes = played.map (·.outcome) ++
      Report.skippedFrom (index + played.length) (steps.drop played.length) := by
  induction h with
  | all => rfl
  | cancelledBefore seen => rfl
  | @onward index s rest x y z t played r turned goesOn later ih =>
    rw [Report.after, ih]
    simp only [List.map_cons, List.length_cons, List.drop_succ_cons, List.cons_append]
    rw [Nat.add_right_comm, Nat.add_assoc]
  | fatal turned => rfl
  | cancelled turned => rfl
  | stopped turned => rfl

theorem Played.goesOn (h : Played stage runner id stack depth w index steps x played r y) :
    ∀ t ∈ played.dropLast, ¬ t.Halts := by
  induction h with
  | all => simp
  | cancelledBefore seen => simp
  | @onward index s rest x y z t played r turned goesOn later ih =>
    intro u hu
    cases played with
    | nil => simp at hu
    | cons v others =>
      rcases List.mem_cons.mp hu with rfl | hu
      · exact goesOn
      · exact ih u hu
  | fatal turned => simp
  | cancelled turned => simp
  | stopped turned => simp

theorem Played.skips (h : Played stage runner id stack depth w index steps x played r y)
    (hleft : played.length < steps.length) :
    y.1.isCancelled = true ∨ ∃ t, played.getLast? = some t ∧ t.Halts := by
  induction h with
  | all => simp at hleft
  | cancelledBefore seen => exact .inl seen
  | @onward index s rest x y z t played r turned goesOn later ih =>
    rcases ih (Nat.lt_of_succ_lt_succ hleft) with hseen | ⟨u, hu, hhalts⟩
    · exact .inl hseen
    · exact .inr ⟨u, by simp [List.getLast?_cons, hu], hhalts⟩
  | fatal turned failure isFatal => exact .inr ⟨_, rfl, _, failure, .inl isFatal⟩
  | cancelled turned failure => exact .inr ⟨_, rfl, _, failure, .inr (.inl rfl)⟩
  | stopped turned failure mild own stops =>
    exact .inr ⟨_, rfl, _, failure, .inr (.inr (turned.2.2.1.symm ▸ stops))⟩

theorem FatalEnd.halts {e : Failure} (h : FatalEnd played e) :
    ∃ t, played.getLast? = some t ∧ t.Halts := by
  obtain ⟨t, ht, he, hfatal⟩ := h
  exact ⟨t, ht, e, he, .inl hfatal⟩

theorem fatalEnd_singleton {t : Turn} {e : Failure} :
    FatalEnd [t] e ↔ t.failure = some e ∧ e.isFatal = true := by
  simp [FatalEnd]

theorem fatalEnd_cons {t : Turn} (h : ¬ t.Halts) (e : Failure) :
    FatalEnd (t :: played) e ↔ FatalEnd played e := by
  cases played with
  | nil =>
    constructor
    · intro hend
      obtain ⟨u, hu, hhalts⟩ := hend.halts
      cases hu
      exact absurd hhalts h
    · rintro ⟨u, hu, -⟩
      cases hu
  | cons u others => simp [FatalEnd, List.getLast?_cons_cons]

theorem cancelledEnd_cons {t : Turn} (h : ¬ t.Halts) (s : Step) (rest : List Step) :
    CancelledEnd (s :: rest) (t :: played) ↔ CancelledEnd rest played := by
  cases played with
  | nil =>
    constructor
    · rintro (⟨u, hu, he⟩ | ⟨hleft, -⟩)
      · cases hu
        exact absurd ⟨_, he, .inr (.inl rfl)⟩ h
      · refine .inr ⟨Nat.lt_of_succ_lt_succ hleft, ?_⟩
        intro u hu
        cases hu
    · rintro (⟨u, hu, -⟩ | ⟨hleft, -⟩)
      · cases hu
      · refine .inr ⟨Nat.succ_lt_succ hleft, ?_⟩
        intro u hu
        cases hu
        exact h
  | cons u others => simp [CancelledEnd, List.getLast?_cons_cons]

theorem Played.fatal_iff (h : Played stage runner id stack depth w index steps x played r y)
    (e : Failure) : r.fatal = some e ↔ FatalEnd played e := by
  induction h with
  | all => simp [Report.empty, FatalEnd]
  | cancelledBefore seen => simp [Report.cancelledBefore, FatalEnd]
  | onward turned goesOn later ih => exact ih.trans (fatalEnd_cons goesOn e).symm
  | fatal turned failure isFatal =>
    rw [fatalEnd_singleton, failure]
    constructor
    · rintro ⟨⟩
      exact ⟨rfl, isFatal⟩
    · exact fun h => h.1
  | cancelled turned failure =>
    rw [fatalEnd_singleton, failure]
    constructor
    · rintro ⟨⟩
    · rintro ⟨⟨⟩, hfatal⟩
      cases hfatal
  | stopped turned failure mild own stops =>
    rw [fatalEnd_singleton, failure]
    constructor
    · rintro ⟨⟩
    · rintro ⟨⟨⟩, hfatal⟩
      rw [mild] at hfatal
      cases hfatal

theorem Played.not_fatal (h : Played stage runner id stack depth w index steps x played r y)
    (hno : ∀ e, ¬ FatalEnd played e) : r.fatal = none := by
  cases hf : r.fatal with
  | none => rfl
  | some e => exact absurd ((h.fatal_iff e).mp hf) (hno e)

theorem Played.cancelled_iff (h : Played stage runner id stack depth w index steps x played r y) :
    r.cancelled = true ↔ CancelledEnd steps played := by
  have hlast : ∀ {t : Turn} {e : Failure} {rest : List Step}, t.failure = some e → t.Halts →
      e ≠ .cancelled → ¬ CancelledEnd rest [t] := by
    rintro t e rest he hhalts hne (⟨u, hu, hcancelled⟩ | ⟨-, hgoesOn⟩)
    · rw [List.getLast?_singleton, Option.some.injEq] at hu
      rw [← hu, he, Option.some.injEq] at hcancelled
      exact hne hcancelled
    · exact hgoesOn t rfl hhalts
  induction h with
  | all => simp [Report.empty, CancelledEnd]
  | cancelledBefore seen => simp [Report.cancelledBefore, CancelledEnd]
  | onward turned goesOn later ih => exact ih.trans (cancelledEnd_cons goesOn ..).symm
  | @fatal index s rest x y t e turned failure isFatal =>
    have hne : e ≠ .cancelled := by
      rintro rfl
      cases isFatal
    exact ⟨fun h => absurd h (by simp), fun h => absurd h (hlast failure ⟨e, failure, .inl isFatal⟩ hne)⟩
  | cancelled turned failure => exact ⟨fun _ => .inl ⟨_, rfl, failure⟩, fun _ => rfl⟩
  | @stopped index s rest x y t e turned failure mild own stops =>
    have hhalts : t.Halts := ⟨e, failure, .inr (.inr (turned.2.2.1 ▸ stops))⟩
    exact ⟨fun h => absurd h (by simp), fun h => absurd h (hlast failure hhalts own)⟩

theorem Played.failed_iff (h : Played stage runner id stack depth w index steps x played r y)
    (hfatal : r.fatal = none) (hcancelled : r.cancelled = false) :
    r.failed = true ↔ ∃ t ∈ played, t.failure.isSome = true ∧ t.step.counts = true := by
  induction h with
  | all => simp [Report.empty]
  | cancelledBefore seen => simp [Report.cancelledBefore] at hcancelled
  | onward turned goesOn later ih =>
    have hrest := ih hfatal hcancelled
    simp only [Report.after, Bool.or_eq_true, Bool.and_eq_true, hrest, List.mem_cons,
      exists_eq_or_imp, turned.2.2.1]
  | fatal turned failure isFatal => cases hfatal
  | cancelled turned failure => cases hcancelled
  | stopped turned failure mild own stops => simp [failure, turned.2.2.1]

end

/-- What can be said of a report on steps, the first of which is number `index`: what was played, what
was skipped and why, where `c` is the clock at the end. -/
structure Policy (index : Nat) (steps : List Step) (played : List Turn) (r : Report) (c : Clock) :
    Prop where
  upTo : played.map (·.step) = steps.take played.length
  told : ∀ t ∈ played, t.Told
  outcomes : r.outcomes = played.map (·.outcome) ++
    Report.skippedFrom (index + played.length) (steps.drop played.length)
  goesOn : ∀ t ∈ played.dropLast, ∀ e, t.failure = some e →
    t.step.options.continueOnError = true ∧ e.isFatal = false ∧ e ≠ .cancelled
  skips : played.length < steps.length → c.isCancelled = true ∨
    ∃ t e, played.getLast? = some t ∧ t.failure = some e ∧
      (e.isFatal = true ∨ e = .cancelled ∨ t.step.options.continueOnError = false)

theorem Played.policy {w : Watch} {index : Nat} {steps : List Step} {x y : Clock × World σ}
    {played : List Turn} {r : Report}
    (h : Played stage runner id stack depth w index steps x played r y) :
    Policy index steps played r y.1 where
  upTo := h.upTo.2
  told := h.told
  outcomes := h.outcomes
  goesOn := by
    intro t ht e he
    have hgoesOn := h.goesOn t ht
    refine ⟨?_, ?_, ?_⟩
    · cases hc : t.step.options.continueOnError with
      | true => rfl
      | false => exact absurd ⟨e, he, .inr (.inr hc)⟩ hgoesOn
    · cases hf : e.isFatal with
      | false => rfl
      | true => exact absurd ⟨e, he, .inl hf⟩ hgoesOn
    · rintro rfl
      exact hgoesOn ⟨_, he, .inr (.inl rfl)⟩
  skips := by
    intro hleft
    rcases h.skips hleft with hseen | ⟨t, ht, e, he, hhalts⟩
    · exact .inl hseen
    · exact .inr ⟨t, e, ht, he, hhalts⟩

end Play

theorem Report.status_of_mem_skippedFrom {index : Nat} {steps : List Step} {o : Outcome}
    (h : o ∈ Report.skippedFrom index steps) : o.status = .skipped := by
  induction steps generalizing index with
  | nil => cases h
  | cons s rest ih =>
    rcases List.mem_cons.mp h with rfl | h
    · rfl
    · exact ih h

theorem Report.not_failed_of_mem_skippedFrom {index : Nat} {steps : List Step} {o : Outcome}
    (h : o ∈ Report.skippedFrom index steps) : o.isFailed = false := by
  rw [Outcome.isFailed, status_of_mem_skippedFrom h]
  rfl

/-- Among the outcomes, a step that failed and counts is found by its index. -/
theorem Play.Policy.exists_failed_iff {steps : List Step} {played : List Turn} {r : Report} {c : Clock}
    {index : Nat} (h : Play.Policy index steps played r c) :
    (∃ t ∈ played, t.failure.isSome = true ∧ t.step.counts = true) ↔
      ∃ (i : Nat) (o : Outcome) (s : Step), r.outcomes[i]? = some o ∧ o.isFailed = true ∧
        steps[i]? = some s ∧ s.options.optional = false := by
  have hstep : ∀ {i : Nat} {t : Turn}, played[i]? = some t → steps[i]? = some t.step := by
    intro i t ht
    have hi : i < played.length := (List.getElem?_eq_some_iff.mp ht).1
    have hmap : (played.map (·.step))[i]? = some t.step := by rw [List.getElem?_map, ht]; rfl
    rw [h.upTo, List.getElem?_take_of_lt hi] at hmap
    exact hmap
  have houtcome : ∀ {i : Nat} {t : Turn}, played[i]? = some t → r.outcomes[i]? = some t.outcome := by
    intro i t ht
    have hi : i < (played.map (·.outcome)).length := by
      rw [List.length_map]
      exact (List.getElem?_eq_some_iff.mp ht).1
    rw [h.outcomes, List.getElem?_append_left hi, List.getElem?_map, ht]
    rfl
  constructor
  · rintro ⟨t, ht, hfailed, hcounts⟩
    obtain ⟨i, hi⟩ := List.mem_iff_getElem?.mp ht
    have hisFailed : t.outcome.isFailed = true := by rw [(h.told t ht).isFailed, hfailed]
    exact ⟨i, t.outcome, t.step, houtcome hi, hisFailed, hstep hi, Bool.not_eq_true' _ ▸ hcounts⟩
  · rintro ⟨i, o, s, ho, hfailed, hs, hoptional⟩
    cases hi : played[i]? with
    | some t =>
      have ht : t ∈ played := List.mem_of_getElem? hi
      rw [houtcome hi, Option.some.injEq] at ho
      rw [hstep hi, Option.some.injEq] at hs
      subst ho hs
      refine ⟨t, ht, ?_, ?_⟩
      · rw [← (h.told t ht).isFailed, hfailed]
      · rw [Step.counts, hoptional]
        rfl
    | none =>
      have hskipped : o ∈ Report.skippedFrom (index + played.length) (steps.drop played.length) := by
        rw [h.outcomes, List.getElem?_append_right (by simpa using List.getElem?_eq_none_iff.mp hi)]
          at ho
        exact List.mem_of_getElem? ho
      rw [Report.not_failed_of_mem_skippedFrom hskipped] at hfailed
      cases hfailed

end Rehearsal
