import Rehearsal.Proofs.Following

/-! # Work that goes on after a cancellation

Work over which nobody watches is looked at some time after the run was cancelled. It is over by then,
or it is somewhere in its middle: then it is told where that is, and what is still done until it ends.
-/
namespace Rehearsal

namespace Timed

variable {S T α β γ : Type}

/-- How the work is found at `t`, over or not. If the run is cancelled and the work goes on, `Rest` holds
of the clock and the state at `t` and of the state in which the work ends. -/
def FoundAt (t : Nat) (Rest : Clock → S → S → Prop) (x : Timed S α) (c : Clock) (s : S) :
    Exit α × Clock × S → Prop
  | (.done a, c₁, s₁) => c₁.now ≤ max c.now t ∧ x .none c s = (.done a, c₁, s₁)
  | (.cancelled, _, _) => False
  | (.expired, c₁, s₁) => c₁.now ≤ max c.now t ∧ (c₁.isCancelled = true →
      ∃ a c₂ s₂, x .none c s = (.done a, c₂, s₂) ∧ c₂.isCancelled = true ∧ Rest c₁ s₁ s₂)

/-- The work is looked at at `t`, from wherever it began. -/
def Lingers (t : Nat) (Rest : Clock → S → S → Prop) (x : Timed S α) : Prop :=
  ∀ c s, FoundAt t Rest x c s (x ⟨false, some t⟩ c s)

/-- After a cancellation the work still comes to its end, and changes the state by no more than this. -/
def Brief (R : S → S → Prop) (x : Timed S α) : Prop :=
  ∀ c s, c.isCancelled = true →
    ∃ a c' s', x .none c s = (.done a, c', s') ∧ c'.isCancelled = true ∧ R s s'

namespace Brief

variable {R R' R'' : S → S → Prop} {x : Timed S α}

/-- Work that looks at its state and changes it, and takes no time. -/
theorem act {f : Clock → S → α} {g : Clock → S → S} (h : ∀ c s, R s (g c s)) :
    Brief R (fun _ c s => (.done (f c s), c, g c s)) :=
  fun c s hc => ⟨f c s, c, g c s, rfl, hc, h c s⟩

theorem pure {a : α} (h : ∀ s, R s s) : Brief R (pure a : Timed S α) := act fun _ s => h s

theorem mono (hx : Brief R x) (h : ∀ s s', R s s' → R' s s') : Brief R' x := by
  intro c s hc
  obtain ⟨a, c', s', hdone, hc', hrest⟩ := hx c s hc
  exact ⟨a, c', s', hdone, hc', h s s' hrest⟩

theorem bind {f : α → Timed S β} (hx : Brief R x) (hf : ∀ a, Brief R' (f a))
    (comp : ∀ s s' s'', R s s' → R' s' s'' → R'' s s'') : Brief R'' (x >>= f) := by
  intro c s hc
  obtain ⟨a, c', s', hdone, hc', hrest⟩ := hx c s hc
  obtain ⟨b, c'', s'', hdone', hc'', hrest'⟩ := hf a c' s' hc'
  exact ⟨b, c'', s'', by rw [bind_of_done hdone, hdone'], hc'', comp _ _ _ hrest hrest'⟩

theorem forIn {l : List β} {b : γ} {f : β → γ → Timed S (ForInStep γ)} (h : ∀ a b, Brief R (f a b))
    (refl : ∀ s, R s s) (trans : ∀ s s' s'', R s s' → R s' s'' → R s s'') : Brief R (forIn l b f) := by
  induction l generalizing b with
  | nil => exact pure refl
  | cons a l ih =>
    rw [List.forIn_cons]
    refine bind (h a b) (fun r => ?_) trans
    cases r with
    | done b => exact pure refl
    | yield b => exact ih

theorem onFirst (hx : Brief R x) :
    Brief (fun y y' : S × T => R y.1 y'.1) (onFirst x : Timed (S × T) α) := by
  rintro c ⟨s, t⟩ hc
  obtain ⟨a, c', s', hdone, hc', hrest⟩ := hx c s hc
  exact ⟨a, c', (s', t), onFirst_of_done hdone t, hc', hrest⟩

theorem withOwn {t : T} {y : Timed (S × T) α} (hy : Brief (fun z z' : S × T => R z.1 z'.1) y) :
    Brief R (withOwn t y) := by
  intro c s hc
  obtain ⟨a, c', ⟨s', t'⟩, hdone, hc', hrest⟩ := hy c (s, t) hc
  exact ⟨(a, t'), c', s', by simp only [Timed.withOwn, hdone], hc', hrest⟩

/-- Work under a watch is not even begun. -/
theorem untilCancelled (h : ∀ s, R s s) (x : Timed S α) : Brief R (untilCancelled x) := by
  intro c s hc
  exact ⟨none, c, s, by simp only [Timed.untilCancelled, hc, if_true], hc, h s⟩

end Brief

namespace Lingers

variable {t : Nat} {R R' : Clock → S → S → Prop} {B : S → S → Prop} {x : Timed S α}

theorem mono (hx : Lingers t R x) (h : ∀ c s s', R c s s' → R' c s s') : Lingers t R' x := by
  intro c s
  have hfound := hx c s
  generalize x ⟨false, some t⟩ c s = r at hfound ⊢
  rcases r with ⟨a | _ | _, c₁, s₁⟩
  · exact hfound
  · exact hfound
  · refine ⟨hfound.1, fun hc => ?_⟩
    obtain ⟨a, c₂, s₂, hdone, hc₂, hrest⟩ := hfound.2 hc
    exact ⟨a, c₂, s₂, hdone, hc₂, h _ _ _ hrest⟩

theorem of_atOnce {P : α → Prop} (hx : AtOnce P x) : Lingers t R x := by
  intro c s
  obtain ⟨a, s', hdone, -⟩ := hx c s
  rw [hdone]
  exact ⟨Nat.le_max_left .., hdone _⟩

theorem act {f : Clock → S → α} {g : Clock → S → S} :
    Lingers t R (fun _ c s => (.done (f c s), c, g c s)) :=
  of_atOnce (.act (P := Whatever) fun _ _ => trivial)

theorem pure {a : α} : Lingers t R (pure a : Timed S α) := act

/-- The second part is looked at, or it is what still comes after the first. -/
theorem bind_of_rest {f : α → Timed S β} (hx : Lingers t R x) (hf : ∀ a, Lingers t R' (f a))
    (rest : ∀ a c s c' s', R c s s' → c'.isCancelled = true →
      ∃ b c'' s'', f a .none c' s' = (.done b, c'', s'') ∧ c''.isCancelled = true ∧ R' c s s'') :
    Lingers t R' (x >>= f) := by
  intro c s
  have hfound := hx c s
  rw [bind_apply]
  generalize x ⟨false, some t⟩ c s = r at hfound ⊢
  rcases r with ⟨a | _ | _, c₁, s₁⟩
  · obtain ⟨hle, hdone⟩ := hfound
    have hsecond := hf a c₁ s₁
    simp only
    generalize f a ⟨false, some t⟩ c₁ s₁ = r' at hsecond ⊢
    have hmax : max c₁.now t ≤ max c.now t := by omega
    rcases r' with ⟨b | _ | _, c₂, s₂⟩
    · exact ⟨Nat.le_trans hsecond.1 hmax, (bind_of_done hdone).trans hsecond.2⟩
    · exact hsecond
    · refine ⟨Nat.le_trans hsecond.1 hmax, fun hc => ?_⟩
      obtain ⟨b, c₃, s₃, hdone', hc₃, hrest⟩ := hsecond.2 hc
      exact ⟨b, c₃, s₃, (bind_of_done hdone).trans hdone', hc₃, hrest⟩
  · exact hfound
  · refine ⟨hfound.1, fun hc => ?_⟩
    obtain ⟨a, c₂, s₂, hdone, hc₂, hrest⟩ := hfound.2 hc
    obtain ⟨b, c₃, s₃, hdone', hrest'⟩ := rest a c₁ s₁ c₂ s₂ hrest hc₂
    exact ⟨b, c₃, s₃, (bind_of_done hdone).trans hdone', hrest'⟩

theorem bind {f : α → Timed S β} (hx : Lingers t R x) (hf : ∀ a, Lingers t R' (f a))
    (brief : ∀ a, Brief B (f a)) (comp : ∀ c s s' s'', R c s s' → B s' s'' → R' c s s'') :
    Lingers t R' (x >>= f) := by
  refine bind_of_rest hx hf fun a c s c' s' hrest hc => ?_
  obtain ⟨b, c'', s'', hdone, hc'', hrest'⟩ := brief a c' s' hc
  exact ⟨b, c'', s'', hdone, hc'', comp _ _ _ _ hrest hrest'⟩

/-- After a first part in which no cancelled run is ever found. -/
theorem andThen {f : α → Timed S β} (hx : Lingers t (fun _ _ _ => False) x)
    (hf : ∀ a, Lingers t R (f a)) : Lingers t R (x >>= f) :=
  bind_of_rest hx hf fun _ _ _ _ _ => False.elim

/-- What goes on was begun somewhere. -/
theorem along (hx : Lingers t R x) :
    Lingers t (fun c₁ s₁ s₂ => ∃ c s a c₂, x ⟨false, some t⟩ c s = (.expired, c₁, s₁) ∧
      x .none c s = (.done a, c₂, s₂)) x := by
  intro c s
  have hfound := hx c s
  generalize hran : x ⟨false, some t⟩ c s = r at hfound ⊢
  rcases r with ⟨a | _ | _, c₁, s₁⟩
  · exact hfound
  · exact hfound
  · refine ⟨hfound.1, fun hc => ?_⟩
    obtain ⟨a, c₂, s₂, hdone, hc₂, -⟩ := hfound.2 hc
    exact ⟨a, c₂, s₂, hdone, hc₂, c, s, a, c₂, hran, hdone⟩

theorem pause (millis : Nat) : Lingers t (fun _ s s' => s = s') (Timed.pause millis : Timed S Unit) := by
  intro c s
  have hfree : ∀ d, (⟨false, d⟩ : Watch).cancelMoment? c = none := fun _ => rfl
  by_cases hzero : millis = 0
  · simp only [Timed.pause, hzero, if_true]
    exact ⟨Nat.le_max_left .., rfl⟩
  · have hwhole : Timed.pause millis .none c s = (.done (), c.at_ (c.now + millis), s) := by
      simp [Timed.pause, Watch.none, Watch.cutoff?, hfree, hzero]
    by_cases ht : t < c.now + millis
    · have hcut : Timed.pause millis ⟨false, some t⟩ c s = (.expired, c.at_ (max c.now t), s) := by
        simp [Timed.pause, Watch.cutoff?, hfree, hzero, ht]
      rw [hcut]
      have hle : max c.now t ≤ c.now + millis := by omega
      have before : (c.at_ (max c.now t)).Before (c.at_ (c.now + millis)) := .at_ hle
      exact ⟨Nat.le_refl _, fun hc => ⟨(), _, s, hwhole, before.isCancelled hc, rfl⟩⟩
    · have hdone : Timed.pause millis ⟨false, some t⟩ c s = (.done (), c.at_ (c.now + millis), s) := by
        simp [Timed.pause, Watch.cutoff?, hfree, hzero, ht]
      rw [hdone]
      refine ⟨?_, hwhole⟩
      show c.now + millis ≤ max c.now t
      omega

theorem onFirst (hx : Lingers t R x) :
    Lingers t (fun c y y' => R c y.1 y'.1) (onFirst x : Timed (S × T) α) := by
  rintro c ⟨s, u⟩
  have hfound := hx c s
  unfold Timed.onFirst
  simp only
  generalize x ⟨false, some t⟩ c s = r at hfound ⊢
  rcases r with ⟨a | _ | _, c₁, s₁⟩
  · exact ⟨hfound.1, onFirst_of_done hfound.2 u⟩
  · exact hfound
  · refine ⟨hfound.1, fun hc => ?_⟩
    obtain ⟨a, c₂, s₂, hdone, hc₂, hrest⟩ := hfound.2 hc
    exact ⟨a, c₂, (s₂, u), onFirst_of_done hdone u, hc₂, hrest⟩

theorem withOwn {u : T} {y : Timed (S × T) α} (hy : Lingers t (fun c z z' => R c z.1 z'.1) y) :
    Lingers t R (withOwn u y) := by
  intro c s
  have hfound := hy c (s, u)
  unfold Timed.withOwn
  generalize y ⟨false, some t⟩ c (s, u) = r at hfound ⊢
  rcases r with ⟨a | _ | _, c₁, s₁, u₁⟩
  · refine ⟨hfound.1, ?_⟩
    simp only [hfound.2]
  · exact hfound
  · refine ⟨hfound.1, fun hc => ?_⟩
    obtain ⟨a, c₂, ⟨s₂, u₂⟩, hdone, hc₂, hrest⟩ := hfound.2 hc
    exact ⟨(a, u₂), c₂, s₂, by simp only [hdone], hc₂, hrest⟩

/-- Work under the watch of a cancellation does not go on after it. -/
theorem untilCancelled (hx : Follows Eq Eq Never x x) : Lingers t R (untilCancelled x) := by
  intro c s
  cases hcancelled : c.isCancelled with
  | true =>
    have hnone : ∀ w, Timed.untilCancelled x w c s = (.done none, c, s) := fun w => by
      simp only [Timed.untilCancelled, hcancelled, if_true]
    rw [hnone]
    exact ⟨Nat.le_max_left .., hnone _⟩
  | false =>
    have hwatched : ∀ w : Watch, Timed.untilCancelled x w c s =
        match x { w with cancellable := true } c s with
        | (.done a, c, s) => (.done (some a), c, s)
        | (.cancelled, c, s) => if w.cancellable then (.cancelled, c, s) else (.done none, c, s)
        | (.expired, c, s) => (.expired, c, s) :=
      fun w => if_neg (by rw [hcancelled]; exact Bool.false_ne_true)
    have hcovers : (⟨true, some t⟩ : Watch).Covers ⟨true, none⟩ := ⟨id, nofun⟩
    have hend := hx ⟨true, some t⟩ ⟨true, none⟩ hcovers c s s rfl
    have hfree := hwatched .none
    rw [hwatched]
    simp only [Watch.none] at hfree ⊢
    generalize x ⟨true, some t⟩ c s = r at hend ⊢
    rcases r with ⟨a | _ | _, c₁, s₁⟩
    · obtain ⟨hmeets, ha | ⟨b, s₂, hdone, rfl, rfl⟩⟩ := hend
      · exact ha.elim
      · rw [hdone] at hfree
        exact ⟨hmeets t rfl, hfree⟩
    · obtain ⟨hmeets, -, hgiven⟩ := hend
      obtain ⟨s₂, hdone, rfl⟩ := hgiven rfl
      rw [hdone] at hfree
      exact ⟨hmeets t rfl, hfree⟩
    · obtain ⟨hmeets, -, hnot, -⟩ := hend
      refine ⟨hmeets t rfl, fun hc => ?_⟩
      rw [hnot rfl] at hc
      cases hc

end Lingers

end Timed

end Rehearsal
