import Rehearsal.Proofs.RunCourse

/-! # Work that was done

What is known backwards, from work that was over: of what it is put together of, each part was over
before, and the clock and the world in between are at hand. What a step does by itself comes in acts;
unlike its moves they say to which call of the browser each change of the page goes back.
-/
namespace Rehearsal

open Timed (Maintains Whatever)

variable {σ α β : Type}

namespace Timed

variable {S : Type} {w : Watch} {c c' : Clock} {s s' : S}

/-- Work under the watch of a cancellation was done, or it was not begun or cancelled. -/
theorem done_of_untilCancelled {x : Timed S α} {r : Option α}
    (h : untilCancelled x w c s = (.done r, c', s')) :
    (∃ a, r = some a ∧ x { w with cancellable := true } c s = (.done a, c', s')) ∨
      (r = none ∧ ((c.isCancelled = true ∧ c = c') ∨
        x { w with cancellable := true } c s = (.cancelled, c', s'))) := by
  unfold untilCancelled at h
  split at h
  · rename_i hcancelled
    cases h
    exact .inr ⟨rfl, .inl ⟨hcancelled, rfl⟩⟩
  generalize hx : x { w with cancellable := true } c s = res at h
  rcases res with ⟨a | _ | _, c₁, s₁⟩
  · cases h
    exact .inl ⟨a, rfl, rfl⟩
  · simp only at h
    split at h
    · cases h
    · cases h
      exact .inr ⟨rfl, .inr rfl⟩
  · cases h

/-- In a run that is never cancelled such work is done. -/
theorem done_of_calm {I : S → Prop} {Q : α → Prop} {x : Timed S α} {r : Option α}
    (hx : Maintains I Q x) (hs : I s) (h : untilCancelled x w c s = (.done r, c', s'))
    (calm : c'.isCancelled = false) :
    ∃ a, r = some a ∧ x { w with cancellable := true } c s = (.done a, c', s') := by
  rcases done_of_untilCancelled h with done | ⟨-, ⟨hcancelled, rfl⟩ | hcancelled⟩
  · exact done
  · rw [hcancelled] at calm
    cases calm
  · have hend := hx { w with cancellable := true } c s hs
    rw [hcancelled] at hend
    rw [hend.2.2.2] at calm
    cases calm

theorem done_of_onFirst {T : Type} {x : Timed S α} {a : α} {t : T} {y : S × T}
    (h : onFirst x w c (s, t) = (.done a, c', y)) : x w c s = (.done a, c', y.1) ∧ y.2 = t := by
  unfold onFirst at h
  generalize x w c s = res at h ⊢
  rcases res with ⟨a | _ | _, c₁, s₁⟩
  · cases h
    exact ⟨rfl, rfl⟩
  · cases h
  · cases h

theorem done_of_withOwn {T : Type} {y : Timed (S × T) α} {t t' : T} {a : α}
    (h : withOwn t y w c s = (.done (a, t'), c', s')) : y w c (s, t) = (.done a, c', (s', t')) := by
  unfold withOwn at h
  generalize y w c (s, t) = res at h ⊢
  rcases res with ⟨a | _ | _, c₁, s₁, t₁⟩
  · cases h
    rfl
  · cases h
  · cases h

theorem now_of_pause {millis : Nat} {u : Unit} (h : pause millis w c s = (.done u, c', s')) :
    c'.now = c.now + millis := by
  unfold pause at h
  split at h
  · rename_i hzero
    cases h
    rw [hzero, Nat.add_zero]
  split at h
  · cases h
  simp only at h
  split at h
  · cases h
  split at h
  · cases h
  · cases h
    rfl

end Timed

namespace Work

variable {work : Work σ α} {w : Watch} {c c' : Clock} {x y : World σ × Trace}

/-- Work that was over is over with its second part, or failed in its first. -/
theorem done_of_bind {f : α → Work σ β} {r : Except Failure β}
    (h : (work >>= f).run w c x = (.done r, c', y)) :
    (∃ a c₁ x₁, work.run w c x = (.done (.ok a), c₁, x₁) ∧ (f a).run w c₁ x₁ = (.done r, c', y)) ∨
      ∃ e, work.run w c x = (.done (.error e), c', y) ∧ r = .error e := by
  obtain ⟨r₁, c₁, x₁, hwork, h⟩ := Timed.done_of_bind h
  cases r₁ with
  | ok a => exact .inl ⟨a, c₁, x₁, hwork, h⟩
  | error e =>
    cases h
    exact .inr ⟨e, hwork, rfl⟩

theorem done_of_try {r : Except Failure (Except Failure α)}
    (h : (try_ work).run w c x = (.done r, c', y)) :
    ∃ r', r = .ok r' ∧ work.run w c x = (.done r', c', y) := by
  obtain ⟨r', c₁, x₁, hwork, h⟩ := Timed.done_of_bind h
  cases h
  exact ⟨r', rfl, hwork⟩

theorem answer_of_ask {call : Call σ (Answer α)} {a : α} {s : World σ} {t : Trace}
    (h : (ask call).run w c (s, t) = (.done (.ok a), c', y)) :
    call.run w c s = (.done (.ok a), c', y.1) ∧ y.2 = t := by
  obtain ⟨h, ht⟩ := Timed.done_of_onFirst h
  obtain ⟨r, c₁, s₁, hcall, h⟩ := Timed.done_of_bind h
  cases r with
  | ok a' =>
    cases h
    exact ⟨hcall, ht⟩
  | error fault => cases h

theorem note_run (stage : Stage σ) (place : Place) (line : String) (w : Watch) (c : Clock) (s : World σ)
    (t : Trace) :
    (note stage place line).run w c (s, t) =
      (.done (.ok ()), c, stage.heard (.stepLog place.scenario place.depth place.index line)
        (s.say [.debug (place.text ++ " " ++ line)]), { t with logs := t.logs ++ [line] }) := by
  show (stage.note place line >>= fun a => pure (Except.ok a)) w c (s, t) = _
  rw [Timed.bind_of_done (stage.note_apply ..)]
  rfl

end Work

/-- What a step does by itself in one act, besides keeping a picture. -/
inductive Stage.Goes (stage : Stage σ) (place : Place) :
    World σ × Trace → World σ × Trace → Prop
  | acts {x y : World σ × Trace} (h : stage.Acts place x y) : stage.Goes place x y
  | sets {s : World σ} {t : Trace} (scope : Scope) : stage.Goes place (s, t) ({ s with scope }, t)

/-- One comes to the other by acts of the step itself. -/
abbrev Stage.GoesTo (stage : Stage σ) (place : Place) : World σ × Trace → World σ × Trace → Prop :=
  Relation.ReflTransGen (stage.Goes place)

namespace Stage

variable {stage : Stage σ} {place : Place} {x y : World σ × Trace}

theorem endures_goesTo (stage : Stage σ) (place : Place) (x : World σ × Trace) :
    stage.Endures place (stage.GoesTo place x) :=
  fun _ _ act goes => goes.tail (.acts act)

/-- What survives every act of a step, survives them all. -/
theorem Endures.along {J : World σ × Trace → Prop} (endures : stage.Endures place J)
    (set : ∀ ⦃s t⦄ scope, J (s, t) → J ({ s with scope }, t)) (goes : stage.GoesTo place x y)
    (h : J x) : J y := by
  induction goes with
  | refl => exact h
  | tail _ act ih =>
    cases act with
    | acts act => exact endures act ih
    | sets scope => exact set scope ih

/-- By itself a step begins and ends none, plays none, and keeps no picture unless it is there for that. -/
theorem GoesTo.stays (goes : stage.GoesTo place x y) :
    y.1.begun = x.1.begun ∧ y.1.turns = x.1.turns ∧ y.2.children = x.2.children ∧
      y.2.screenshot = x.2.screenshot := by
  have firm : stage.Firm place fun y => y.1.begun = x.1.begun ∧ y.1.turns = x.1.turns ∧
      y.2.children = x.2.children := by
    intro y z move h
    obtain ⟨_, moved⟩ := move.moved
    exact ⟨moved.begun.trans h.1, moved.turns.trans h.2.1, moved.children.trans h.2.2⟩
  have endures : stage.Endures place fun y => y.2.screenshot = x.2.screenshot := by
    intro y z act h
    cases act <;> exact h
  obtain ⟨begun, turns, children⟩ := firm.endures.along (fun _ _ _ h => h) goes ⟨rfl, rfl, rfl⟩
  exact ⟨begun, turns, children, endures.along (fun _ _ _ h => h) goes rfl⟩

end Stage

/-- Work that a step does by itself. -/
structure Work.Own (stage : Stage σ) (place : Place) (work : Work σ α) : Prop where
  maintains : ∀ x, Work.Maintains (stage.GoesTo place x) Whatever (fun _ => True) work

namespace Work

variable {stage : Stage σ} {place : Place} {w : Watch} {c : Clock} {x : World σ × Trace}
  {r : Except Failure α} {y : Clock × World σ × Trace}

/-- Noting a line takes no time, never fails and leaves the page alone. -/
theorem goes_of_note {line : String} {f : Unit → Work σ α}
    (h : (note stage place line >>= f).run w c x = (.done r, y)) :
    ∃ z, stage.GoesTo place x z ∧ z.1.page = x.1.page ∧ (f ()).run w c z = (.done r, y) := by
  obtain ⟨s, t⟩ := x
  have goes : stage.GoesTo place (s, t)
      (stage.heard (.stepLog place.scenario place.depth place.index line)
        (s.say [.debug (place.text ++ " " ++ line)]), { t with logs := t.logs ++ [line] }) :=
    .tail (.single (.acts (.say _))) (.acts (.note line))
  refine ⟨_, goes, stage.page_heard .., ?_⟩
  rw [← h]
  show _ = ((note stage place line).run >>= _) w c (s, t)
  rw [Timed.bind_of_done (note_run ..)]
  rfl

theorem goes_of_say (stage : Stage σ) (place : Place) {lines : List LogLine} {f : Unit → Work σ α}
    (h : (say lines >>= f).run w c x = (.done r, y)) :
    ∃ z, stage.GoesTo place x z ∧ z.1.page = x.1.page ∧ (f ()).run w c z = (.done r, y) :=
  ⟨(x.1.say lines, x.2), .single (.acts (.say lines)), rfl, h⟩

theorem goes_of_setSelector (stage : Stage σ) (place : Place) {selector : String}
    {r : Except Failure Unit} (h : (setSelector selector).run w c x = (.done r, y)) :
    r = .ok () ∧ y.1 = c ∧ stage.GoesTo place x y.2 ∧ y.2.1 = x.1 := by
  cases h
  exact ⟨rfl, rfl, .single (.acts (.selector selector)), rfl⟩

end Work

namespace Work.Own

variable {stage : Stage σ} {place : Place} {work : Work σ α} {w : Watch} {c : Clock} {x : World σ × Trace}

theorem goes {r : Exit (Except Failure α)} {y : Clock × World σ × Trace} (own : Own stage place work)
    (h : work.run w c x = (r, y)) : c.Before y.1 ∧ stage.GoesTo place x y.2 :=
  ⟨(own.maintains x).before .refl h, (own.maintains x).holds .refl h⟩

/-- Of a first part that is the step's own, it is known where it has led. -/
theorem done_of_bind {f : α → Work σ β} {r : Except Failure β} {y : Clock × World σ × Trace}
    (own : Own stage place work) (h : (work >>= f).run w c x = (.done r, y)) :
    (∃ a z, work.run w c x = (.done (.ok a), z) ∧ c.Before z.1 ∧ stage.GoesTo place x z.2 ∧
        (f a).run w z.1 z.2 = (.done r, y)) ∨
      ∃ e, r = .error e ∧ c.Before y.1 ∧ stage.GoesTo place x y.2 := by
  rcases Work.done_of_bind h with ⟨a, c₁, x₁, hwork, h⟩ | ⟨e, hwork, rfl⟩
  · obtain ⟨before, goes⟩ := own.goes hwork
    exact .inl ⟨a, (c₁, x₁), hwork, before, goes, h⟩
  · obtain ⟨before, goes⟩ := own.goes hwork
    exact .inr ⟨e, rfl, before, goes⟩

end Work.Own

end Rehearsal
