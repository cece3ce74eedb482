import Rehearsal.Run.Stage

/-! # What work maintains and what it brings about

Work maintains an invariant if it holds at the end whenever it holds at the beginning, however the work
ends and whoever watches over it. With that goes what is known of its result, and that it is given up
only where somebody watches. Where the end differs from the beginning, the work brings about one thing
when it is done and another when it is given up. The clock never goes back, and work is cancelled only
when the run is.
-/
namespace Rehearsal

namespace Clock

/-- The second clock is the first at the same time or later, cancelled perhaps in between. -/
structure Before (c c' : Clock) : Prop where
  now : c.now ≤ c'.now
  stopped : c.stopped = true → c'.stopped = true
  cancelAt : c'.cancelAt = c.cancelAt

namespace Before

variable {c c' c'' : Clock}

theorem refl (c : Clock) : c.Before c := ⟨Nat.le_refl _, id, rfl⟩

theorem trans (h : c.Before c') (h' : c'.Before c'') : c.Before c'' :=
  ⟨Nat.le_trans h.now h'.now, fun hstop => h'.stopped (h.stopped hstop), h'.cancelAt.trans h.cancelAt⟩

theorem stop (c : Clock) : c.Before c.stop := ⟨Nat.le_refl _, fun _ => rfl, rfl⟩

theorem at_ {t : Nat} (h : c.now ≤ t) : c.Before (c.at_ t) := ⟨h, id, rfl⟩

/-- A run that has been cancelled stays cancelled. -/
theorem isCancelled (h : c.Before c') (hcancelled : c.isCancelled = true) : c'.isCancelled = true := by
  unfold Clock.isCancelled at hcancelled ⊢
  rw [h.cancelAt]
  rcases Bool.or_eq_true_iff.mp hcancelled with hstop | hdue
  · rw [h.stopped hstop, Bool.true_or]
  · cases hat : c.cancelAt with
    | none =>
      rw [hat] at hdue
      cases hdue
    | some t =>
      rw [hat] at hdue
      have hle : t ≤ c.now := by simpa using hdue
      simp [Nat.le_trans hle h.now]

theorem not_isCancelled (h : c.Before c') (calm : c'.isCancelled = false) : c.isCancelled = false := by
  cases hc : c.isCancelled with
  | false => rfl
  | true =>
    rw [h.isCancelled hc] at calm
    cases calm

end Before

end Clock

namespace Timed

variable {S T α β : Type}

theorem done_of_bind {x : Timed S α} {f : α → Timed S β} {w : Watch} {c c' : Clock} {s s' : S} {b : β}
    (h : (x >>= f) w c s = (.done b, c', s')) :
    ∃ a c₁ s₁, x w c s = (.done a, c₁, s₁) ∧ f a w c₁ s₁ = (.done b, c', s') := by
  rw [bind_apply] at h
  generalize x w c s = r at h ⊢
  rcases r with ⟨a | _ | _, c₁, s₁⟩
  · exact ⟨a, c₁, s₁, rfl, h⟩
  · cases h
  · cases h

theorem bind_of_done {x : Timed S α} {f : α → Timed S β} {w : Watch} {c c₁ : Clock} {s s₁ : S} {a : α}
    (h : x w c s = (.done a, c₁, s₁)) : (x >>= f) w c s = f a w c₁ s₁ := by
  rw [bind_apply, h]

/-- Work was given up in its first part, or comes out of its second. -/
theorem bind_cases {x : Timed S α} {f : α → Timed S β} {w : Watch} {c c' : Clock} {s s' : S}
    {e : Exit β} (h : (x >>= f) w c s = (e, c', s')) :
    (∃ a c₁ s₁, x w c s = (.done a, c₁, s₁) ∧ f a w c₁ s₁ = (e, c', s')) ∨
      ∃ e', x w c s = (e', c', s') ∧ (∀ a, e' ≠ .done a) ∧ ∀ b, e ≠ .done b := by
  rw [bind_apply] at h
  generalize x w c s = r at h ⊢
  rcases r with ⟨a | _ | _, c₁, s₁⟩
  · exact .inl ⟨a, c₁, s₁, rfl, h⟩
  · cases h
    exact .inr ⟨_, rfl, by simp, by simp⟩
  · cases h
    exact .inr ⟨_, rfl, by simp, by simp⟩

theorem onFirst_of_done {x : Timed S α} {w : Watch} {c c' : Clock} {s s' : S} {a : α}
    (h : x w c s = (.done a, c', s')) (t : T) : onFirst x w c (s, t) = (.done a, c', (s', t)) := by
  unfold onFirst
  rw [h]

/-- How watched work that began at `c` may end: with the invariant, and given up only by what was
watching. -/
def Ended (w : Watch) (c : Clock) (I : S → Prop) (Q : α → Prop) : Exit α × Clock × S → Prop
  | (.done a, c', s) => c.Before c' ∧ I s ∧ Q a
  | (.cancelled, c', s) => c.Before c' ∧ I s ∧ w.cancellable = true ∧ c'.isCancelled = true
  | (.expired, c', s) => c.Before c' ∧ I s ∧ w.deadline.isSome = true

theorem Ended.since {w : Watch} {c c' : Clock} {I : S → Prop} {Q : α → Prop} (hc : c.Before c')
    {r : Exit α × Clock × S} (h : Ended w c' I Q r) : Ended w c I Q r := by
  rcases r with ⟨a | _ | _, c'', s''⟩
  · exact ⟨hc.trans h.1, h.2⟩
  · exact ⟨hc.trans h.1, h.2⟩
  · exact ⟨hc.trans h.1, h.2⟩

def Maintains (I : S → Prop) (Q : α → Prop) (x : Timed S α) : Prop :=
  ∀ w c s, I s → Ended w c I Q (x w c s)

abbrev Whatever (_ : α) : Prop := True

namespace Maintains

variable {I : S → Prop} {Q R : α → Prop} {P : β → Prop} {x : Timed S α}

theorem pure {a : α} (h : Q a) : Maintains I Q (pure a) := by
  intro w c s hs
  exact ⟨.refl c, hs, h⟩

theorem bind {f : α → Timed S β} (hx : Maintains I R x) (hf : ∀ a, R a → Maintains I P (f a)) :
    Maintains I P (x >>= f) := by
  intro w c s hs
  have hend := hx w c s hs
  rw [bind_apply]
  generalize x w c s = r at hend ⊢
  rcases r with ⟨a | _ | _, c', s'⟩
  · exact Ended.since hend.1 (hf a hend.2.2 w c' s' hend.2.1)
  · exact hend
  · exact hend

theorem mono (hx : Maintains I R x) (h : ∀ a, R a → Q a) : Maintains I Q x := by
  intro w c s hs
  have hend := hx w c s hs
  generalize x w c s = r at hend ⊢
  rcases r with ⟨a | _ | _, c', s'⟩
  · exact ⟨hend.1, hend.2.1, h a hend.2.2⟩
  · exact hend
  · exact hend

theorem whatever (hx : Maintains I Q x) : Maintains I Whatever x := hx.mono fun _ _ => trivial

theorem modify {f : S → S} (h : ∀ s, I s → I (f s)) : Maintains I Whatever (modify f) := by
  intro w c s hs
  exact ⟨.refl c, h s hs, trivial⟩

theorem read {f : Clock → S → α} (h : ∀ c s, I s → Q (f c s)) :
    Maintains I Q (fun _ c s => (.done (f c s), c, s)) := by
  intro w c s hs
  exact ⟨.refl c, hs, h c s hs⟩

theorem now : Maintains I Whatever now := read fun _ _ _ => trivial

theorem isCancelled : Maintains I Whatever isCancelled := read fun _ _ _ => trivial

theorem cutoff?_eq_some {w : Watch} {now wake t : Nat} (h : w.cutoff? now wake = some t) :
    now ≤ t ∧ w.deadline.isSome = true := by
  cases hd : w.deadline with
  | none => simp [Watch.cutoff?, hd] at h
  | some d =>
    refine ⟨?_, rfl⟩
    simp only [Watch.cutoff?, hd, Option.bind_some] at h
    split at h
    · cases h
      exact Nat.le_max_left ..
    · cases h

theorem moment_eq_some {w : Watch} {c : Clock} {p : Nat → Bool} {t : Nat}
    (h : (w.cancelMoment? c).filter p = some t) : w.cancellable = true ∧ c.cancelAt = some t := by
  cases hw : w.cancellable with
  | true =>
    simp only [Watch.cancelMoment?, hw, if_true] at h
    exact ⟨rfl, (Option.filter_eq_some_iff.mp h).1⟩
  | false => simp [Watch.cancelMoment?, hw] at h

theorem pause (millis : Nat) : Maintains I Whatever (pause millis) := by
  intro w c s hs
  unfold Timed.pause
  split
  · exact ⟨.refl c, hs, trivial⟩
  split
  · rename_i hstop
    obtain ⟨hw, hcancelled⟩ := Bool.and_eq_true_iff.mp hstop
    exact ⟨.refl c, hs, hw, hcancelled⟩
  rename_i hcalm
  simp only
  split
  · rename_i t hmoment
    obtain ⟨hw, hat⟩ := moment_eq_some hmoment
    -- The moment of the cancellation is not over yet, or the pause would not have begun.
    have hlater : c.now ≤ t := by
      simp [hw, Clock.isCancelled, hat] at hcalm
      omega
    exact ⟨.at_ hlater, hs, hw, by simp [Clock.isCancelled, Clock.at_, hat]⟩
  split
  · rename_i t hcutoff
    obtain ⟨hlater, hd⟩ := cutoff?_eq_some hcutoff
    exact ⟨.at_ hlater, hs, hd⟩
  · exact ⟨.at_ (Nat.le_add_right ..), hs, trivial⟩

/-- Whatever comes within the time is as it would be without the limit. -/
theorem within {millis : Nat} (hx : Maintains I Q x) :
    Maintains I (fun r => ∀ a, r = some a → Q a) (within millis x) := by
  intro w c s hs
  unfold Timed.within
  simp only
  have hend := hx { w with deadline := some (earlier w.deadline (c.now + millis)) } c s hs
  generalize x { w with deadline := some (earlier w.deadline (c.now + millis)) } c s = r at hend ⊢
  rcases r with ⟨a | _ | _, c', s'⟩
  · refine ⟨hend.1, hend.2.1, ?_⟩
    rintro b ⟨⟩
    exact hend.2.2
  · exact hend
  · simp only
    split
    · refine ⟨hend.1, hend.2.1, ?_⟩
      rintro b ⟨⟩
    · rename_i hall
      refine ⟨hend.1, hend.2.1, ?_⟩
      cases hd : w.deadline with
      | none => simp [hd] at hall
      | some d => rfl

/-- Work that was not done under this watch was cancelled with the run. -/
theorem untilCancelled (hx : Maintains I Q x) :
    Maintains I (fun r => ∀ a, r = some a → Q a) (untilCancelled x) := by
  intro w c s hs
  unfold Timed.untilCancelled
  split
  · refine ⟨.refl c, hs, ?_⟩
    rintro b ⟨⟩
  have hend := hx { w with cancellable := true } c s hs
  generalize x { w with cancellable := true } c s = r at hend ⊢
  rcases r with ⟨a | _ | _, c', s'⟩
  · refine ⟨hend.1, hend.2.1, ?_⟩
    rintro b ⟨⟩
    exact hend.2.2
  · simp only
    split
    · rename_i hw
      exact ⟨hend.1, hend.2.1, hw, hend.2.2.2⟩
    · refine ⟨hend.1, hend.2.1, ?_⟩
      rintro b ⟨⟩
  · exact hend

theorem onFirst {J : S × T → Prop} (hx : ∀ t, Maintains (fun s => J (s, t)) Q x) :
    Maintains J Q (onFirst x) := by
  intro w c st hs
  have hend := hx st.2 w c st.1 hs
  unfold Timed.onFirst
  generalize x w c st.1 = r at hend ⊢
  rcases r with ⟨a | _ | _, c', s'⟩
  · exact hend
  · exact hend
  · exact hend

theorem withOwn {t : T} {y : Timed (S × T) α} (hy : Maintains (fun st : S × T => I st.1) Q y) :
    Maintains I (fun r => Q r.1) (withOwn t y) := by
  intro w c s hs
  have hend := hy w c (s, t) hs
  unfold Timed.withOwn
  generalize y w c (s, t) = r at hend ⊢
  rcases r with ⟨a | _ | _, c', s', t'⟩
  · exact hend
  · exact hend
  · exact hend

theorem modifySecond {J : S × T → Prop} {f : T → T} (h : ∀ s t, J (s, t) → J (s, f t)) :
    Maintains J Whatever (modifySecond f) :=
  modify fun st => h st.1 st.2

section

variable {w : Watch} {c c' : Clock} {s s' : S} {e : Exit α}

theorem holds (hx : Maintains I Q x) (hs : I s) (h : x w c s = (e, c', s')) : I s' := by
  have hend := hx w c s hs
  rw [h] at hend
  cases e with
  | done a => exact hend.2.1
  | cancelled => exact hend.2.1
  | expired => exact hend.2.1

theorem before (hx : Maintains I Q x) (hs : I s) (h : x w c s = (e, c', s')) : c.Before c' := by
  have hend := hx w c s hs
  rw [h] at hend
  cases e with
  | done a => exact hend.1
  | cancelled => exact hend.1
  | expired => exact hend.1

/-- Work under no time limit comes to its end if the run has not been cancelled by then. -/
theorem ends (hx : Maintains I Q x) (hs : I s) (h : x w c s = (e, c', s'))
    (free : w.deadline = none) (calm : c'.isCancelled = false) : ∃ a, e = .done a ∧ Q a := by
  have hend := hx w c s hs
  rw [h] at hend
  cases e with
  | done a => exact ⟨a, rfl, hend.2.2⟩
  | cancelled =>
    rw [hend.2.2.2] at calm
    cases calm
  | expired =>
    have hd := hend.2.2
    rw [free] at hd
    cases hd

end

theorem done (hx : Maintains I Q x) (c : Clock) {s : S} (hs : I s) :
    ∃ a c' s', x .none c s = (.done a, c', s') ∧ I s' ∧ Q a := by
  have hend := hx .none c s hs
  generalize x .none c s = r at hend ⊢
  rcases r with ⟨a | _ | _, c', s'⟩
  · exact ⟨a, c', s', rfl, hend.2⟩
  · cases hend.2.2.1
  · cases hend.2.2

end Maintains

/-- What is known where work was done, and where it was given up. -/
def Left (Q : α → S → Prop) (E : S → Prop) : Exit α × Clock × S → Prop
  | (.done a, _, s) => Q a s
  | (.cancelled, _, s) => E s
  | (.expired, _, s) => E s

/-- From where `I` holds, work under this watch comes to its end with `Q`, or is given up where `E`
holds. -/
def Brings (w : Watch) (I : S → Prop) (Q : α → S → Prop) (E : S → Prop) (x : Timed S α) : Prop :=
  ∀ c s, I s → Left Q E (x w c s)

namespace Brings

variable {w : Watch} {I J : S → Prop} {Q R : α → S → Prop} {P : β → S → Prop} {E F : S → Prop}
  {x : Timed S α}

theorem left {c : Clock} {s : S} {r : Exit α × Clock × S} (hx : Brings w I Q E x) (hs : I s)
    (h : x w c s = r) : Left Q E r :=
  h ▸ hx c s hs

theorem of_maintains {K : α → Prop} (hx : Maintains J K x) :
    Brings w J (fun a s => J s ∧ K a) J x := by
  intro c s hs
  have hend := hx w c s hs
  generalize x w c s = r at hend ⊢
  rcases r with ⟨a | _ | _, c', s'⟩
  · exact hend.2
  · exact hend.2.1
  · exact hend.2.1

theorem mono (hx : Brings w J R F x) (hI : ∀ s, I s → J s) (hQ : ∀ a s, R a s → Q a s)
    (hE : ∀ s, F s → E s) : Brings w I Q E x := by
  intro c s hs
  have hend := hx c s (hI s hs)
  generalize x w c s = r at hend ⊢
  rcases r with ⟨a | _ | _, c', s'⟩
  · exact hQ a s' hend
  · exact hE s' hend
  · exact hE s' hend

theorem pure {a : α} (h : ∀ s, I s → Q a s) : Brings w I Q E (pure a) :=
  fun _ s hs => h s hs

theorem bind {f : α → Timed S β} (hx : Brings w I R E x)
    (hf : ∀ a, Brings w (R a) P E (f a)) : Brings w I P E (x >>= f) := by
  intro c s hs
  have hend := hx c s hs
  rw [bind_apply]
  generalize x w c s = r at hend ⊢
  rcases r with ⟨a | _ | _, c', s'⟩
  · exact hf a c' s' hend
  · exact hend
  · exact hend

/-- What holds all along the first part of work holds where its second part begins. -/
theorem alongBind {K : α → Prop} {f : α → Timed S β} (hx : Maintains I K x) (hE : ∀ s, I s → E s)
    (hf : ∀ a, Brings w I P E (f a)) : Brings w I P E (x >>= f) :=
  .bind (.mono (.of_maintains hx) (fun _ h => h) (fun _ _ h => h.1) hE) hf

/-- Work whose time was up was given up. -/
theorem within {millis : Nat} (hx : ∀ d, Brings { w with deadline := d } I Q E x) :
    Brings w I (fun r s => (∃ a, r = some a ∧ Q a s) ∨ (r = none ∧ E s)) E (within millis x) := by
  intro c s hs
  unfold Timed.within
  simp only
  have hend := hx (some (earlier w.deadline (c.now + millis))) c s hs
  generalize x { w with deadline := some (earlier w.deadline (c.now + millis)) } c s = r at hend ⊢
  rcases r with ⟨a | _ | _, c', s'⟩
  · exact .inl ⟨a, rfl, hend⟩
  · exact hend
  · simp only
    split
    · exact .inr ⟨rfl, hend⟩
    · exact hend

/-- Work that was cancelled was not begun, or was given up with nobody further out to end it. -/
theorem untilCancelled (hx : Brings { w with cancellable := true } I Q E x) :
    Brings w I (fun r s => (∃ a, r = some a ∧ Q a s) ∨
      (r = none ∧ (I s ∨ (E s ∧ w.cancellable = false)))) E (untilCancelled x) := by
  intro c s hs
  unfold Timed.untilCancelled
  split
  · exact .inr ⟨rfl, .inl hs⟩
  have hend := hx c s hs
  generalize x { w with cancellable := true } c s = r at hend ⊢
  rcases r with ⟨a | _ | _, c', s'⟩
  · exact .inl ⟨a, rfl, hend⟩
  · simp only
    split
    · exact hend
    · rename_i hw
      exact .inr ⟨rfl, .inr ⟨hend, Bool.eq_false_iff.mpr hw⟩⟩
  · exact hend

theorem withOwn {t : T} {Q : α → S × T → Prop} {E : S × T → Prop} {y : Timed (S × T) α}
    (hy : Brings w (fun st => I st.1 ∧ st.2 = t) Q E y) :
    Brings w I (fun r s => Q r.1 (s, r.2)) (fun s => ∃ t, E (s, t)) (withOwn t y) := by
  intro c s hs
  have hend := hy c (s, t) ⟨hs, rfl⟩
  unfold Timed.withOwn
  generalize y w c (s, t) = r at hend ⊢
  rcases r with ⟨a | _ | _, c', s', t'⟩
  · exact hend
  · exact ⟨t', hend⟩
  · exact ⟨t', hend⟩

/-- Where nothing else is known of work, that it was done is known. -/
theorem onFirst {I : S × T → Prop} :
    Brings w I (fun a st => ∃ c s c', I (s, st.2) ∧ x w c s = (.done a, c', st.1))
      (fun st => ∃ c s e c', I (s, st.2) ∧ x w c s = (e, c', st.1) ∧ ∀ a, e ≠ .done a)
      (onFirst x) := by
  intro c st hst
  unfold Timed.onFirst
  generalize hr : x w c st.1 = r
  rcases r with ⟨a | _ | _, c', s'⟩
  · exact ⟨c, st.1, c', hst, hr⟩
  · exact ⟨c, st.1, .cancelled, c', hst, hr, by simp⟩
  · exact ⟨c, st.1, .expired, c', hst, hr, by simp⟩

/-- Work that maintains an invariant of both states, and of which it is known that it was done. -/
theorem onFirst_of_maintains {J : S × T → Prop} {K : α → Prop}
    (hx : ∀ t, Maintains (fun s => J (s, t)) K x) :
    Brings w J (fun a st => J st ∧ ∃ c c' s, J (s, st.2) ∧ x w c s = (.done a, c', st.1)) J
      (Timed.onFirst x) := by
  intro c st hst
  have hend := hx st.2 w c st.1 hst
  unfold Timed.onFirst
  generalize hr : x w c st.1 = r at hend ⊢
  rcases r with ⟨a | _ | _, c', s'⟩
  · exact ⟨hend.2.1, c, c', st.1, hst, hr⟩
  · exact hend.2.1
  · exact hend.2.1

end Brings

end Timed

end Rehearsal
