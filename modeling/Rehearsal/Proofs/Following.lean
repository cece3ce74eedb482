import Rehearsal.Proofs.Maintains

/-! # Work beside other work

Two pieces of work on related states, the second under a watch that gives up less, or later, than that
of the first. The second follows the first if it does the same as long as the first is not given up:
what was done in the first is done in the second at the same moment and with a related result. A result
may be bad; of the other work nothing is claimed from there on. Besides it is known when the first can
have been given up: not after its deadline, and at a deadline only while the run was not cancelled.
-/
namespace Rehearsal

/-- The first watch is at least as strict as the second: it gives up whatever the second gives up, and
no later. -/
structure Watch.Covers (w v : Watch) : Prop where
  cancellable : v.cancellable = true → w.cancellable = true
  deadline : ∀ d', v.deadline = some d' → ∃ d, w.deadline = some d ∧ d ≤ d'

/-- Work that began at the first clock was over or given up by the deadline, or at once. -/
def Watch.Meets (w : Watch) (c c' : Clock) : Prop :=
  ∀ d, w.deadline = some d → c'.now ≤ max c.now d

namespace Watch

variable {w v : Watch} {c c' c'' : Clock}

theorem Covers.refl (w : Watch) : w.Covers w := ⟨id, fun d h => ⟨d, h, Nat.le_refl d⟩⟩

theorem covers_none (w : Watch) : w.Covers .none := ⟨nofun, nofun⟩

theorem Covers.within (h : w.Covers v) (mine : Nat) :
    ({ w with deadline := some (Timed.earlier w.deadline mine) } : Watch).Covers
      { v with deadline := some (Timed.earlier v.deadline mine) } := by
  refine ⟨h.cancellable, ?_⟩
  rintro d' ⟨⟩
  refine ⟨_, rfl, ?_⟩
  cases hv : v.deadline with
  | none =>
    cases hw : w.deadline with
    | none => exact Nat.le_refl _
    | some d => exact Nat.min_le_right ..
  | some d' =>
    obtain ⟨d, hw, hle⟩ := h.deadline d' hv
    rw [hw]
    show min d mine ≤ min d' mine
    omega

theorem Covers.untilCancelled (h : w.Covers v) :
    ({ w with cancellable := true } : Watch).Covers { v with cancellable := true } :=
  ⟨id, h.deadline⟩

/-- Where the first watch does not give up at once, the second does not either. -/
theorem Covers.calm (h : w.Covers v) (calm : ¬ (w.cancellable && c.isCancelled) = true) :
    ¬ (v.cancellable && c.isCancelled) = true := by
  simp only [Bool.and_eq_true, not_and] at calm ⊢
  exact fun hv => calm (h.cancellable hv)

theorem Covers.cancelMoment?_eq (h : w.Covers v) (hv : v.cancellable = true) (c : Clock) :
    v.cancelMoment? c = w.cancelMoment? c := by
  rw [cancelMoment?, cancelMoment?, hv, h.cancellable hv]

/-- A run that nobody has cancelled is not cancelled yet at a moment before the cancellation. -/
theorem isCancelled_at_eq_false {m : Nat} (hw : w.cancellable = true)
    (calm : ¬ (w.cancellable && c.isCancelled) = true)
    (h : (w.cancelMoment? c).filter (· ≤ m) = .none) : (c.at_ m).isCancelled = false := by
  simp only [hw, Bool.true_and, Bool.not_eq_true, Clock.isCancelled, Bool.or_eq_false_iff] at calm
  simp only [cancelMoment?, hw, if_true] at h
  simp only [Clock.isCancelled, Clock.at_, calm.1, Bool.false_or]
  cases hat : c.cancelAt with
  | none => rfl
  | some u =>
    rw [hat] at h
    simpa [Option.filter] using h

theorem Meets.refl (w : Watch) (c : Clock) : w.Meets c c := fun _ _ => Nat.le_max_left ..

theorem Meets.trans (h : w.Meets c c') (h' : w.Meets c' c'') : w.Meets c c'' := by
  intro d hd
  have hle := h d hd
  have hle' := h' d hd
  omega

/-- Time limits inside do not put off a deadline. -/
theorem Meets.of_within {mine : Nat}
    (h : ({ w with deadline := some (Timed.earlier w.deadline mine) } : Watch).Meets c c') :
    w.Meets c c' := by
  intro d hd
  have hle := h _ rfl
  rw [hd] at hle
  have hmin : min d mine ≤ d := Nat.min_le_left ..
  have hmax : max c.now (min d mine) ≤ max c.now d := by omega
  exact Nat.le_trans hle hmax

end Watch

namespace Timed

variable {S T κ μ α β γ δ : Type}

/-- Work that is done as soon as it is begun, the same whoever watches, with such a result. -/
def AtOnce (P : α → Prop) (x : Timed S α) : Prop :=
  ∀ c s, ∃ a s', (∀ w, x w c s = (.done a, c, s')) ∧ P a

namespace AtOnce

variable {P Q : α → Prop} {R : β → Prop} {x : Timed S α}

theorem act {f : Clock → S → α} {g : Clock → S → S} (h : ∀ c s, P (f c s)) :
    AtOnce P (fun _ c s => (.done (f c s), c, g c s)) := fun c s => ⟨_, _, fun _ => rfl, h c s⟩

theorem pure {a : α} (h : P a) : AtOnce P (pure a : Timed S α) := act fun _ _ => h

theorem modify (f : S → S) : AtOnce Whatever (modify f : Timed S Unit) := act fun _ _ => trivial

theorem bind {f : α → Timed S β} (hx : AtOnce P x) (hf : ∀ a, P a → AtOnce R (f a)) :
    AtOnce R (x >>= f) := by
  intro c s
  obtain ⟨a, s', hdone, ha⟩ := hx c s
  obtain ⟨b, s'', hdone', hb⟩ := hf a ha c s'
  exact ⟨b, s'', fun w => by rw [bind_of_done (hdone w), hdone'], hb⟩

theorem onFirst (hx : AtOnce P x) : AtOnce P (onFirst x : Timed (S × T) α) := by
  rintro c ⟨s, t⟩
  obtain ⟨a, s', hdone, ha⟩ := hx c s
  exact ⟨a, (s', t), fun w => onFirst_of_done (hdone w) t, ha⟩

theorem forIn {l : List β} {b : γ} {f : β → γ → Timed S (ForInStep γ)}
    (h : ∀ a b, AtOnce Whatever (f a b)) : AtOnce Whatever (forIn l b f) := by
  induction l generalizing b with
  | nil => exact pure trivial
  | cons a l ih =>
    rw [List.forIn_cons]
    refine bind (h a b) fun r _ => ?_
    cases r with
    | done b => exact pure trivial
    | yield b => exact ih

end AtOnce

/-- How work that began at `c` ended, and how other work did under a watch that the first covers. -/
def Beside (w v : Watch) (c : Clock) (R : S → T → Prop) (Q : α → β → Prop) (B : α → Prop) :
    Exit α × Clock × S → Exit β × Clock × T → Prop
  | (.done a, c', s), r =>
    w.Meets c c' ∧ (B a ∨ ∃ b t, r = (.done b, c', t) ∧ R s t ∧ Q a b)
  | (.cancelled, c', s), r =>
    w.Meets c c' ∧ w.cancellable = true ∧
      (v.cancellable = true → ∃ t, r = (.cancelled, c', t) ∧ R s t)
  | (.expired, c', s), r =>
    w.Meets c c' ∧ w.deadline.isSome = true ∧ (w.cancellable = true → c'.isCancelled = false) ∧
      (w.deadline = v.deadline → ∃ t, r = (.expired, c', t) ∧ R s t)

/-- The second work does as the first does, as long as the first is not given up. -/
def Follows (R : S → T → Prop) (Q : α → β → Prop) (B : α → Prop) (x : Timed S α) (y : Timed T β) :
    Prop :=
  ∀ w v, w.Covers v → ∀ c s t, R s t → Beside w v c R Q B (x w c s) (y v c t)

/-- Nothing counts as bad. -/
abbrev Never (_ : α) : Prop := False

/-- States and what goes with them are related each by themselves. -/
def Both (R : S → T → Prop) (U : κ → μ → Prop) (x : S × κ) (y : T × μ) : Prop :=
  R x.1 y.1 ∧ U x.2 y.2

section

variable {w v : Watch} {c c' : Clock} {R : S → T → Prop} {Q : α → β → Prop} {B : α → Prop}

theorem Beside.since {r : Exit α × Clock × S} {r' : Exit β × Clock × T} (hc : w.Meets c c')
    (h : Beside w v c' R Q B r r') : Beside w v c R Q B r r' := by
  rcases r with ⟨a | _ | _, c'', s⟩
  · exact ⟨hc.trans h.1, h.2⟩
  · exact ⟨hc.trans h.1, h.2⟩
  · exact ⟨hc.trans h.1, h.2⟩

theorem Beside.meets {e : Exit α} {s : S} {r : Exit β × Clock × T}
    (h : Beside w v c R Q B (e, c', s) r) : w.Meets c c' := by
  cases e with
  | done a => exact h.1
  | cancelled => exact h.1
  | expired => exact h.1

end

namespace Follows

variable {R : S → T → Prop} {Q Q' : α → β → Prop} {P : γ → δ → Prop} {B B' : α → Prop}
  {spoilt : γ → Prop} {x : Timed S α} {y : Timed T β}

theorem mono (h : Follows R Q B x y) (hQ : ∀ a b, Q a b → Q' a b) (hbad : ∀ a, B a → B' a) :
    Follows R Q' B' x y := by
  intro w v hw c s t hst
  have hend := h w v hw c s t hst
  generalize x w c s = r at hend ⊢
  rcases r with ⟨a | _ | _, c', s'⟩
  · refine ⟨hend.1, ?_⟩
    rcases hend.2 with ha | ⟨b, t', hr, hst', hab⟩
    · exact .inl (hbad a ha)
    · exact .inr ⟨b, t', hr, hst', hQ a b hab⟩
  · exact hend
  · exact hend

/-- States are related if one of several relations holds of them. -/
theorem of_each {ι : Type} {E : ι → S → T → Prop} (h : ∀ i, Follows (E i) Q B x y)
    (into : ∀ s t, R s t → ∃ i, E i s t) (back : ∀ i s t, E i s t → R s t) : Follows R Q B x y := by
  intro w v hw c s t hst
  obtain ⟨i, hi⟩ := into s t hst
  have hend := h i w v hw c s t hi
  generalize x w c s = r at hend ⊢
  rcases r with ⟨a | _ | _, c', s'⟩
  · refine ⟨hend.1, hend.2.imp_right ?_⟩
    rintro ⟨b, t', hr, hst', hab⟩
    exact ⟨b, t', hr, back i _ _ hst', hab⟩
  · refine ⟨hend.1, hend.2.1, fun hv => ?_⟩
    obtain ⟨t', hr, hst'⟩ := hend.2.2 hv
    exact ⟨t', hr, back i _ _ hst'⟩
  · refine ⟨hend.1, hend.2.1, hend.2.2.1, fun hd => ?_⟩
    obtain ⟨t', hr, hst'⟩ := hend.2.2.2 hd
    exact ⟨t', hr, back i _ _ hst'⟩

/-- Work that looks at its state and changes it, and takes no time. -/
theorem act {f : Clock → S → α} {f' : Clock → T → β} {g : Clock → S → S} {g' : Clock → T → T}
    (hst : ∀ c s t, R s t → R (g c s) (g' c t) ∧ Q (f c s) (f' c t)) :
    Follows R Q B (fun _ c s => (.done (f c s), c, g c s)) (fun _ c t => (.done (f' c t), c, g' c t)) := by
  intro w v hw c s t h
  exact ⟨.refl w c, .inr ⟨_, _, rfl, hst c s t h⟩⟩

theorem pure {a : α} {b : β} (h : Q a b) : Follows R Q B (pure a) (pure b) :=
  act fun _ _ _ hst => ⟨hst, h⟩

theorem modify {B : Unit → Prop} {f : S → S} {g : T → T} (h : ∀ s t, R s t → R (f s) (g t)) :
    Follows R Eq B (modify f) (modify g) :=
  act fun _ s t hst => ⟨h s t hst, rfl⟩

theorem read {f : Clock → S → α} {g : Clock → T → β} (h : ∀ c s t, R s t → Q (f c s) (g c t)) :
    Follows R Q B (fun _ c s => (.done (f c s), c, s)) (fun _ c t => (.done (g c t), c, t)) :=
  act fun c s t hst => ⟨hst, h c s t hst⟩

/-- After a bad result the work must come to a bad result at once. -/
theorem bind {f : α → Timed S γ} {g : β → Timed T δ} (hx : Follows R Q B x y)
    (hf : ∀ a b, Q a b → Follows R P spoilt (f a) (g b)) (hbad : ∀ a, B a → AtOnce spoilt (f a)) :
    Follows R P spoilt (x >>= f) (y >>= g) := by
  intro w v hw c s t hst
  have hend := hx w v hw c s t hst
  rw [bind_apply, bind_apply]
  generalize x w c s = r at hend ⊢
  rcases r with ⟨a | _ | _, c', s'⟩
  · obtain ⟨hmeets, ha | ⟨b, t', hr, hst', hab⟩⟩ := hend
    · obtain ⟨d, s'', hdone, hd⟩ := hbad a ha c' s'
      simp only [hdone w]
      exact ⟨hmeets, .inl hd⟩
    · simp only [hr]
      exact .since hmeets (hf a b hab w v hw c' s' t' hst')
  · refine ⟨hend.1, hend.2.1, ?_⟩
    intro hv
    obtain ⟨t', hr, hst'⟩ := hend.2.2 hv
    exact ⟨t', by rw [hr], hst'⟩
  · refine ⟨hend.1, hend.2.1, hend.2.2.1, ?_⟩
    intro hd
    obtain ⟨t', hr, hst'⟩ := hend.2.2.2 hd
    exact ⟨t', by rw [hr], hst'⟩

/-- Where the first part has no bad results. -/
theorem andThen {f : α → Timed S γ} {g : β → Timed T δ} (hx : Follows R Q Never x y)
    (hf : ∀ a b, Q a b → Follows R P spoilt (f a) (g b)) : Follows R P spoilt (x >>= f) (y >>= g) :=
  bind hx hf fun _ => False.elim

theorem cutoff?_none {w v : Watch} {now wake : Nat} (hw : w.Covers v)
    (h : w.cutoff? now wake = none) : v.cutoff? now wake = none := by
  cases hv : v.deadline with
  | none => simp [Watch.cutoff?, hv]
  | some d' =>
    obtain ⟨d, hd, hle⟩ := hw.deadline d' hv
    simp [Watch.cutoff?, hd] at h
    simp [Watch.cutoff?, hv]
    omega

/-- A stricter watch ends a pause no later. -/
theorem cutoff?_le {w v : Watch} {now wake : Nat} (hw : w.Covers v) (hwake : now ≤ wake) :
    (w.cutoff? now wake).getD wake ≤ (v.cutoff? now wake).getD wake := by
  cases hv : v.deadline with
  | none =>
    cases hd : w.deadline with
    | none => simp [Watch.cutoff?, hv, hd]
    | some d =>
      simp only [Watch.cutoff?, hv, hd, Option.bind_some, Option.bind_none, Option.getD_none]
      split
      · show max now d ≤ wake
        omega
      · exact Nat.le_refl _
  | some d' =>
    obtain ⟨d, hd, hle⟩ := hw.deadline d' hv
    simp only [Watch.cutoff?, hv, hd, Option.bind_some]
    split
    · split
      · show max now d ≤ max now d'
        omega
      · show max now d ≤ wake
        omega
    · exact Nat.le_of_eq (by rw [if_neg (by omega)])

theorem meets_cutoff {w : Watch} {c : Clock} {wake : Nat} (hwake : c.now ≤ wake) {t : Nat}
    (ht : t ≤ (w.cutoff? c.now wake).getD wake) : w.Meets c (c.at_ t) := by
  intro d hd
  simp only [Watch.cutoff?, hd, Option.bind_some] at ht
  show t ≤ max c.now d
  split at ht
  · exact ht
  · simp only [Option.getD_none] at ht
    omega

theorem pause (millis : Nat) (B : Unit → Prop) :
    Follows R Eq B (Timed.pause millis) (Timed.pause millis) := by
  intro w v hw c s t hst
  unfold Timed.pause
  split
  · exact ⟨.refl w c, .inr ⟨(), t, rfl, hst, rfl⟩⟩
  split
  · rename_i hstop
    obtain ⟨hwatched, hcancelled⟩ := Bool.and_eq_true_iff.mp hstop
    refine ⟨.refl w c, hwatched, fun hv => ⟨t, ?_, hst⟩⟩
    rw [if_pos (Bool.and_eq_true_iff.mpr ⟨hv, hcancelled⟩)]
  rename_i hcalm
  rw [if_neg (hw.calm hcalm)]
  have hwake : c.now ≤ c.now + millis := Nat.le_add_right ..
  have hlater := cutoff?_le hw hwake
  simp only
  split
  · rename_i m hm
    obtain ⟨hat, hle⟩ := Option.filter_eq_some_iff.mp hm
    have hle := of_decide_eq_true hle
    refine ⟨meets_cutoff hwake hle, (Maintains.moment_eq_some hm).1, fun hv => ⟨t, ?_, hst⟩⟩
    have hm' : (v.cancelMoment? c).filter
        (· ≤ (v.cutoff? c.now (c.now + millis)).getD (c.now + millis)) = some m := by
      rw [hw.cancelMoment?_eq hv]
      exact Option.filter_eq_some_iff.mpr ⟨hat, decide_eq_true (Nat.le_trans hle hlater)⟩
    rw [hm']
  · rename_i hnone
    -- Where the first watch sees no cancellation in time, the second sees none.
    have hnone' (h : v.cutoff? c.now (c.now + millis) = w.cutoff? c.now (c.now + millis)) :
        (v.cancelMoment? c).filter
          (· ≤ (v.cutoff? c.now (c.now + millis)).getD (c.now + millis)) = none := by
      cases hv : v.cancellable with
      | false => simp [Watch.cancelMoment?, hv]
      | true => rw [hw.cancelMoment?_eq hv, h, hnone]
    split
    · rename_i m hm
      rw [hm, Option.getD_some] at hnone
      refine ⟨meets_cutoff hwake (by rw [hm]; exact Nat.le_refl _), (Maintains.cutoff?_eq_some hm).2,
        fun hc => Watch.isCancelled_at_eq_false hc hcalm hnone, fun hd => ?_⟩
      have hm' : v.cutoff? c.now (c.now + millis) = some m := by
        rw [Watch.cutoff?, ← hd]
        exact hm
      refine ⟨t, ?_, hst⟩
      rw [hnone' (hm'.trans hm.symm), hm']
    · rename_i hm
      have hm' := cutoff?_none hw hm
      refine ⟨meets_cutoff hwake (by rw [hm]; exact Nat.le_refl _), .inr ⟨(), t, ?_, hst, rfl⟩⟩
      rw [hnone' (hm'.trans hm.symm), hm']

theorem within {millis : Nat} (hx : Follows R Q B x y) :
    Follows R (Option.Rel Q) (fun r => ∃ a, r = some a ∧ B a) (within millis x) (within millis y) := by
  intro w v hw c s t hst
  have hend := hx _ _ (hw.within (c.now + millis)) c s t hst
  unfold Timed.within
  simp only
  generalize x { w with deadline := some (earlier w.deadline (c.now + millis)) } c s = r at hend ⊢
  rcases r with ⟨a | _ | _, c', s'⟩
  · obtain ⟨hmeets, ha | ⟨b, t', hr, hst', hab⟩⟩ := hend
    · exact ⟨hmeets.of_within, .inl ⟨a, rfl, ha⟩⟩
    · rw [hr]
      exact ⟨hmeets.of_within, .inr ⟨some b, t', rfl, hst', .some hab⟩⟩
  · refine ⟨hend.1.of_within, hend.2.1, fun hv => ?_⟩
    obtain ⟨t', hr, hst'⟩ := hend.2.2 hv
    exact ⟨t', by rw [hr], hst'⟩
  · obtain ⟨hmeets, -, hcalm, hgiven⟩ := hend
    simp only at hgiven ⊢
    split
    · rename_i hmine
      -- It is the limit of this work that has ended it, and that is the same on both sides.
      have hmine' : v.deadline.all (c.now + millis ≤ ·) = true := by
        cases hv : v.deadline with
        | none => rfl
        | some d' =>
          obtain ⟨d, hd, hle⟩ := hw.deadline d' hv
          simp only [hd, Option.all_some, decide_eq_true_eq] at hmine
          simp only [Option.all_some, decide_eq_true_eq]
          omega
      have hearlier : ∀ u : Watch, u.deadline.all (c.now + millis ≤ ·) = true →
          earlier u.deadline (c.now + millis) = c.now + millis := by
        intro u hu
        cases hd : u.deadline with
        | none => rfl
        | some d =>
          simp only [hd, Option.all_some, decide_eq_true_eq] at hu
          exact Nat.min_eq_right hu
      obtain ⟨t', hr, hst'⟩ := hgiven (by rw [hearlier w hmine, hearlier v hmine'])
      rw [hr]
      simp only
      rw [if_pos hmine']
      exact ⟨hmeets.of_within, .inr ⟨none, t', rfl, hst', .none⟩⟩
    · rename_i hother
      have hlimited : w.deadline.isSome = true := by
        cases hd : w.deadline with
        | none => simp [hd] at hother
        | some d => rfl
      refine ⟨hmeets.of_within, hlimited, hcalm, fun hd => ?_⟩
      obtain ⟨t', hr, hst'⟩ := hgiven (by rw [hd])
      rw [hr]
      simp only
      rw [if_neg (by rw [← hd]; exact hother)]
      exact ⟨t', rfl, hst'⟩

theorem untilCancelled (hx : Follows R Q B x y) :
    Follows R (Option.Rel Q) (fun r => ∃ a, r = some a ∧ B a) (untilCancelled x)
      (untilCancelled y) := by
  intro w v hw c s t hst
  unfold Timed.untilCancelled
  split
  · exact ⟨.refl w c, .inr ⟨none, t, rfl, hst, .none⟩⟩
  have hend := hx _ _ hw.untilCancelled c s t hst
  generalize x { w with cancellable := true } c s = r at hend ⊢
  rcases r with ⟨a | _ | _, c', s'⟩
  · obtain ⟨hmeets, ha | ⟨b, t', hr, hst', hab⟩⟩ := hend
    · exact ⟨hmeets, .inl ⟨a, rfl, ha⟩⟩
    · rw [hr]
      exact ⟨hmeets, .inr ⟨some b, t', rfl, hst', .some hab⟩⟩
  · obtain ⟨hmeets, -, hgiven⟩ := hend
    obtain ⟨t', hr, hst'⟩ := hgiven rfl
    rw [hr]
    simp only
    split
    · rename_i hwatched
      refine ⟨hmeets, hwatched, fun hv => ?_⟩
      rw [if_pos hv]
      exact ⟨t', rfl, hst'⟩
    · rename_i hfree
      rw [if_neg fun hv => hfree (hw.cancellable hv)]
      exact ⟨hmeets, .inr ⟨none, t', rfl, hst', .none⟩⟩
  · obtain ⟨hmeets, hlimited, hcalm, hgiven⟩ := hend
    refine ⟨hmeets, hlimited, fun _ => hcalm rfl, fun hd => ?_⟩
    obtain ⟨t', hr, hst'⟩ := hgiven hd
    rw [hr]
    exact ⟨t', rfl, hst'⟩

theorem onFirst {U : κ → μ → Prop} (hx : Follows R Q B x y) :
    Follows (Both R U) Q B (onFirst x) (onFirst y) := by
  rintro w v hw c ⟨s, a⟩ ⟨t, b⟩ ⟨hst, hab⟩
  have hend := hx w v hw c s t hst
  unfold Timed.onFirst
  simp only
  generalize x w c s = r at hend ⊢
  rcases r with ⟨a' | _ | _, c', s'⟩
  · refine ⟨hend.1, hend.2.imp_right ?_⟩
    rintro ⟨b', t', hr, hst', hab'⟩
    exact ⟨b', (t', b), by rw [hr], ⟨hst', hab⟩, hab'⟩
  · refine ⟨hend.1, hend.2.1, fun hv => ?_⟩
    obtain ⟨t', hr, hst'⟩ := hend.2.2 hv
    exact ⟨(t', b), by rw [hr], hst', hab⟩
  · refine ⟨hend.1, hend.2.1, hend.2.2.1, fun hd => ?_⟩
    obtain ⟨t', hr, hst'⟩ := hend.2.2.2 hd
    exact ⟨(t', b), by rw [hr], hst', hab⟩

theorem withOwn {U : κ → μ → Prop} {a : κ} {b : μ} {x : Timed (S × κ) α} {y : Timed (T × μ) β}
    (hab : U a b) (hx : Follows (Both R U) Q B x y) :
    Follows R (fun p q => Q p.1 q.1 ∧ U p.2 q.2) (fun p => B p.1) (withOwn a x) (withOwn b y) := by
  intro w v hw c s t hst
  have hend := hx w v hw c (s, a) (t, b) ⟨hst, hab⟩
  unfold Timed.withOwn
  generalize x w c (s, a) = r at hend ⊢
  rcases r with ⟨a' | _ | _, c', s', a₁⟩
  · refine ⟨hend.1, hend.2.imp_right ?_⟩
    rintro ⟨b', ⟨t', b₁⟩, hr, hst', hab'⟩
    exact ⟨(b', b₁), t', by rw [hr], hst'.1, hab', hst'.2⟩
  · refine ⟨hend.1, hend.2.1, fun hv => ?_⟩
    obtain ⟨⟨t', b₁⟩, hr, hst'⟩ := hend.2.2 hv
    exact ⟨t', by rw [hr], hst'.1⟩
  · refine ⟨hend.1, hend.2.1, hend.2.2.1, fun hd => ?_⟩
    obtain ⟨⟨t', b₁⟩, hr, hst'⟩ := hend.2.2.2 hd
    exact ⟨t', by rw [hr], hst'.1⟩

/-- Work that follows itself goes on in a world only by what it finds there. -/
theorem eq_of_same {I : S → Prop} {x y : Timed S α}
    (h : Follows (fun s t => s = t ∧ I s) Eq Never x y) (w : Watch) (c : Clock) {s : S} (hs : I s) :
    y w c s = x w c s := by
  have hend := h w w (.refl w) c s s ⟨rfl, hs⟩
  generalize x w c s = r at hend ⊢
  rcases r with ⟨a | _ | _, c', s'⟩
  · obtain ⟨-, ha | ⟨b, t', hr, ⟨rfl, -⟩, rfl⟩⟩ := hend
    · exact ha.elim
    · exact hr
  · obtain ⟨t', hr, rfl, -⟩ := hend.2.2 hend.2.1
    exact hr
  · obtain ⟨t', hr, rfl, -⟩ := hend.2.2.2 rfl
    exact hr

/-- Where nobody watches over the first work, both are done. -/
theorem done (h : Follows R Q B x y) (c : Clock) {s : S} {t : T} (hst : R s t) :
    ∃ a c' s', x .none c s = (.done a, c', s') ∧
      (B a ∨ ∃ b t', y .none c t = (.done b, c', t') ∧ R s' t' ∧ Q a b) := by
  have hend := h .none .none (.refl _) c s t hst
  generalize x .none c s = r at hend ⊢
  rcases r with ⟨a | _ | _, c', s'⟩
  · exact ⟨a, c', s', rfl, hend.2⟩
  · cases hend.2.1
  · cases hend.2.1

end Follows

end Timed

end Rehearsal
