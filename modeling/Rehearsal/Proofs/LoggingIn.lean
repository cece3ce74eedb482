import Rehearsal.Proofs.Inversion

/-! # How one is logged in

Making sure of a login, taken apart. The page is visited and answers for the login or not; if it does
not, the login scenario is played, its session is saved and the page is visited again. It is not asked a
second time.
-/
namespace Rehearsal

open Timed (Maintains Whatever)

variable {σ : Type}

namespace Locate

variable {b : Browser σ} {w : Watch} {c c' : Clock} {s s' : World σ}

theorem visible_of_attempt {selector : String} {output : Option String}
    (h : attempt b .visible selector w c s = (.done (.done output), c', s')) :
    (b.probe selector).run w c s = (.done (.ok .visible), c', s') := by
  obtain ⟨r, c₁, s₁, hprobe, h⟩ := Timed.done_of_bind h
  rcases r with fault | presence
  · cases h
  · cases presence with
    | missing => cases h
    | hidden => cases h
    | visible =>
      cases h
      exact hprobe

/-- A round that finds an element takes it from the candidates, and has seen it. -/
theorem visible_of_round {candidates : List String} {missed : Missed} {located : Located}
    (h : round b .visible missed candidates w c s = (.done (.inr located), c', s')) :
    located.selector ∈ candidates ∧ ∃ c₁ s₁, c.Before c₁ ∧
      (b.probe located.selector).run w c₁ s₁ = (.done (.ok .visible), c', s') := by
  induction candidates generalizing missed c s with
  | nil => cases h
  | cons selector rest ih =>
    obtain ⟨r, c₁, s₁, hattempt, h⟩ := Timed.done_of_bind h
    have keeps : b.Keeps fun _ => True := Undisturbed.keeps ⟨fun _ _ => trivial, fun _ _ => trivial⟩ b
    have before : c.Before c₁ := (maintains_attempt keeps _ _).before trivial hattempt
    have later : ∀ {missed : Missed},
        round b .visible missed rest w c₁ s₁ = (.done (.inr located), c', s') →
        located.selector ∈ selector :: rest ∧ ∃ c₁ s₁, c.Before c₁ ∧
          (b.probe located.selector).run w c₁ s₁ = (.done (.ok .visible), c', s') := by
      intro missed h
      obtain ⟨hmem, c₂, s₂, before', hprobe⟩ := ih h
      exact ⟨List.mem_cons_of_mem _ hmem, c₂, s₂, before.trans before', hprobe⟩
    cases r with
    | done output =>
      cases h
      exact ⟨List.mem_cons_self .., c, s, .refl c, visible_of_attempt hattempt⟩
    | otherText text => exact later h
    | notReady reason => exact later h

/-- Rounds are begun until the deadline, and not after it. -/
theorem visible_of_rounds {candidates : List String} {deadline fuel : Nat}
    {other : Option (String × String)} {located : Located} (due : c.now ≤ deadline)
    (h : rounds b .visible candidates deadline fuel other w c s = (.done (.ok located), c', s')) :
    located.selector ∈ candidates ∧ ∃ (c₀ c₁ : Clock) (s₁ : World σ), c₀.now ≤ deadline ∧
      c₀.Before c₁ ∧
      (b.probe located.selector).run w c₁ s₁ = (.done (.ok .visible), c', s') := by
  induction fuel generalizing other c s with
  | zero => cases h
  | succ fuel ih =>
    obtain ⟨r, c₁, s₁, hround, h⟩ := Timed.done_of_bind h
    cases r with
    | inr found =>
      cases h
      obtain ⟨hmem, c₂, s₂, before, hprobe⟩ := visible_of_round hround
      exact ⟨hmem, c, c₂, s₂, due, before, hprobe⟩
    | inl missed =>
      simp only at h
      rw [Timed.bind_of_done (Timed.now_apply ..)] at h
      split at h
      · cases h
      · rename_i hnow
        obtain ⟨u, c₂, s₂, hpause, h⟩ := Timed.done_of_bind h
        refine ih ?_ h
        have hslept := Timed.now_of_pause hpause
        have hle : min interval (deadline - c₁.now) ≤ deadline - c₁.now := Nat.min_le_right ..
        omega

end Locate

/-- A search has found one of the candidates to be visible, in a round that was begun in time. -/
def Seen (b : Browser σ) (candidates : List String) (timeout : Nat) (w : Watch)
    (x y : Clock × World σ) : Prop :=
  ∃ located, locate b candidates .visible timeout w x.1 x.2 = (.done (.ok located), y) ∧
    located.selector ∈ candidates ∧ ∃ (c₀ c₁ : Clock) (s₁ : World σ), c₀.now ≤ x.1.now + timeout ∧
      c₀.Before c₁ ∧ (b.probe located.selector).run w c₁ s₁ = (.done (.ok .visible), y)

theorem seen_of_locate {b : Browser σ} {candidates : List String} {timeout : Nat} {located : Located}
    {w : Watch} {c c' : Clock} {s s' : World σ}
    (h : locate b candidates .visible timeout w c s = (.done (.ok located), c', s')) :
    Seen b candidates timeout w (c, s) (c', s') := by
  have hrounds := h
  unfold locate at hrounds
  rw [Timed.bind_of_done (Timed.now_apply ..)] at hrounds
  exact ⟨located, h, Locate.visible_of_rounds (Nat.le_add_right ..) hrounds⟩

namespace Login

variable {stage : Stage σ} {runner : Runner σ} {place : Place} {stack : CallStack} {login : LoginTask}
  {timeout : Nat} {w : Watch}

/-- The page that is open at first answers for the login: its address does not look like that of a login
page and, if there is anything to look for, one of the candidates is seen in time. -/
inductive Authenticated (stage : Stage σ) (login : LoginTask) (timeout : Nat) (w : Watch)
    (x y : Clock × World σ) : Prop
  | mk {url : String} {a : Clock × World σ}
    (asked : stage.browser.currentUrl.run w x.1 x.2 = (.done (.ok url), a))
    (elsewhere : login.loginUrlPattern = "" ∨ Text.contains url login.loginUrlPattern = false)
    (unmarked : login.loggedIn = none → y = a)
    (marked : ∀ candidates, login.loggedIn = some candidates →
      Seen stage.browser candidates (min stage.settings.authCheckTimeout timeout) w a y)

section

variable (stage : Stage σ) (place : Place) (login : LoginTask) (timeout : Nat) (w : Watch)

/-- The page was visited and did not answer for the login, and now the login scenario is to be played. -/
inductive Lacking (x a : Clock × World σ × Trace) : Prop
  | mk {x₀ x₁ z : Clock × World σ × Trace} (before : stage.GoesTo place x.2 x₀.2)
    (visited : (visit stage login.checkUrl timeout).run w x₀.1 x₀.2 = (.done (.ok ()), x₁))
    (checked : (check stage place login timeout).run w x₁.1 x₁.2 = (.done (.ok false), z))
    (after : stage.GoesTo place z.2 a.2) (last : a.2.1.page = z.2.1.page)

variable (runner : Runner σ) (stack : CallStack)

/-- Every way to make sure of a login, where one comes from `x` to `y` with the result. It is made sure
where the page answers for the login right after its visit; or it does not, the login scenario is played
to a good end, the session is saved and the page is visited once more. -/
inductive Ensures (x : Clock × World σ × Trace) :
    Except Failure Unit → Clock × World σ × Trace → Prop
  | halts {e : Failure} {y : Clock × World σ × Trace} (goes : stage.GoesTo place x.2 y.2) :
    Ensures x (.error e) y
  | found {x₀ x₁ y : Clock × World σ × Trace} {z : Clock × World σ}
    (before : stage.GoesTo place x.2 x₀.2)
    (visited : (visit stage login.checkUrl timeout).run w x₀.1 x₀.2 = (.done (.ok ()), x₁))
    (authenticated : Authenticated stage login timeout w (x₁.1, x₁.2.1) z)
    (last : y.2.1.page = z.2.page)
    (goes : stage.GoesTo place x.2 y.2) : Ensures x (.ok ()) y
  | fails {e : Failure} {a b y : Clock × World σ × Trace}
    (lacking : Lacking stage place login timeout w x a)
    (performed : (perform runner place stack login.loginScenario).run w a.1 a.2 =
      (.done (.error e), b))
    (later : b.1.Before y.1) (goes : stage.GoesTo place b.2 y.2)
    (atOnce : e.isFatal = true → y = b) :
    Ensures x
      (.error (if e.isFatal || e = .cancelled then e else .login login.loginScenario e.message)) y
  | breaks {e : Failure} {a b y : Clock × World σ × Trace}
    (lacking : Lacking stage place login timeout w x a)
    (performed : (perform runner place stack login.loginScenario).run w a.1 a.2 = (.done (.ok ()), b))
    (later : b.1.Before y.1) (goes : stage.GoesTo place b.2 y.2) : Ensures x (.error e) y
  | logsIn {a b d x₁ y : Clock × World σ × Trace}
    (lacking : Lacking stage place login timeout w x a)
    (performed : (perform runner place stack login.loginScenario).run w a.1 a.2 = (.done (.ok ()), b))
    (saved : (save stage place login.stateName).run w b.1 b.2 = (.done (.ok ()), d))
    (visited : (visit stage login.checkUrl timeout).run w d.1 d.2 = (.done (.ok ()), x₁))
    (last : y.2.1.page = x₁.2.1.page)
    (later : b.1.Before y.1) (goes : stage.GoesTo place b.2 y.2) : Ensures x (.ok ()) y

end

/-- The check says yes only of a page that answers for the login. -/
theorem authenticated_of_check {c : Clock} {s : World σ} {t : Trace} {y : Clock × World σ × Trace}
    (h : (check stage place login timeout).run w c (s, t) = (.done (.ok true), y)) :
    ∃ z, Authenticated stage login timeout w (c, s) z ∧ y.2.1.page = z.2.page := by
  obtain ⟨url, c₁, ⟨s₁, t₁⟩, hurl, h⟩ | ⟨e, -, he⟩ := Work.done_of_bind h
  case inr => cases he
  obtain ⟨hurl, -⟩ := Work.answer_of_ask hurl
  simp only at h
  split at h
  · obtain ⟨y₂, -, -, h⟩ := Work.goes_of_note h
    cases h
  rename_i hpattern
  have elsewhere : login.loginUrlPattern = "" ∨ Text.contains url login.loginUrlPattern = false := by
    by_cases hempty : login.loginUrlPattern = ""
    · exact .inl hempty
    · refine .inr (Bool.eq_false_iff.mpr fun hcontains => hpattern ?_)
      have hfull : login.loginUrlPattern.isEmpty = false := by
        simpa [String.isEmpty_iff] using hempty
      simp [hfull, hcontains]
  cases hmarks : login.loggedIn with
  | none =>
    rw [hmarks] at h
    have hy : (c₁, s₁, t₁) = y := (Prod.mk.inj h).2
    exact ⟨(c₁, s₁), .mk hurl elsewhere (fun _ => rfl) (by simp [hmarks]), by rw [← hy]⟩
  | some candidates =>
    rw [hmarks] at h
    obtain ⟨r, c₂, y₂, hlocate, h⟩ | ⟨e, -, he⟩ := Work.done_of_bind h
    case inr => cases he
    obtain ⟨r', c₃, y₃, hlocate, hr⟩ := Timed.done_of_bind hlocate
    cases hr
    obtain ⟨hlocate, -⟩ := Timed.done_of_onFirst hlocate
    cases r with
    | error e =>
      cases e with
      | elementNotFound tried detail =>
        obtain ⟨_, -, -, h⟩ := Work.goes_of_note h
        cases h
      | _ => cases h
    | ok located =>
      obtain ⟨y₃, -, hpage, h⟩ := Work.goes_of_note h
      cases h
      refine ⟨(y.1, y₂.1), .mk hurl elsewhere (by simp [hmarks]) fun candidates' hcandidates => ?_,
        hpage⟩
      rw [hmarks] at hcandidates
      cases hcandidates
      exact seen_of_locate hlocate

section

variable (stage : Stage σ) (place : Place)

theorem own_save (stateName : String) : Work.Own stage place (save stage place stateName) :=
  ⟨fun x => maintains_save (stage.endures_goesTo place x) stage.tolerates_true stateName⟩

theorem own_load (stateName : String) : Work.Own stage place (load stage place stateName) :=
  ⟨fun x => maintains_load (stage.endures_goesTo place x) stage.tolerates_true stateName⟩

theorem own_visit (url : String) (timeout : Nat) : Work.Own stage place (visit stage url timeout) :=
  ⟨fun x => maintains_visit (stage.endures_goesTo place x) stage.tolerates_true url timeout⟩

theorem own_check (login : LoginTask) (timeout : Nat) :
    Work.Own stage place (check stage place login timeout) :=
  ⟨fun x => maintains_check (stage.endures_goesTo place x) stage.tolerates_true login timeout⟩

end

theorem Lacking.goes {x a : Clock × World σ × Trace}
    (h : Lacking stage place login timeout w x a) : stage.GoesTo place x.2 a.2 := by
  obtain ⟨before, visited, checked, after, -⟩ := h
  have visits := ((own_visit stage place _ _).goes visited).2
  have checks := ((own_check stage place _ _).goes checked).2
  exact ((before.trans visits).trans checks).trans after

/-- Where it was made sure of a login, or that failed, it was in one of these ways. -/
theorem ensures_of_done {x y : Clock × World σ × Trace} {r : Except Failure Unit}
    (h : (ensure stage runner place stack login timeout).run w x.1 x.2 = (.done r, y)) :
    Ensures stage place login timeout w runner stack x r y := by
  obtain ⟨x₁, goes₁, -, h⟩ := Work.goes_of_note h
  obtain ⟨restored, x₂, -, -, goes₂, h⟩ | ⟨e, rfl, -, goes⟩ := (own_load stage place _).done_of_bind h
  case inr => exact .halts (goes₁.trans goes)
  have goes₂ := goes₁.trans goes₂
  obtain ⟨_, x₃, hvisit, -, goes₃, h⟩ | ⟨e, rfl, -, goes⟩ := (own_visit stage place _ _).done_of_bind h
  case inr => exact .halts (goes₂.trans goes)
  have goes₃ := goes₂.trans goes₃
  obtain ⟨loggedIn, x₄, hcheck, -, goes₄, h⟩ | ⟨e, rfl, -, goes⟩ :=
    (own_check stage place _ _).done_of_bind h
  case inr => exact .halts (goes₃.trans goes)
  cases loggedIn with
  | true =>
    obtain ⟨x₅, goes₅, hpage, h⟩ := Work.goes_of_note h
    obtain ⟨rfl, -, goes₆, hworld⟩ := Work.goes_of_setSelector stage place h
    obtain ⟨z, authenticated, hz⟩ := authenticated_of_check hcheck
    exact .found goes₂ hvisit authenticated (by rw [hworld, hpage, hz])
      (((goes₃.trans goes₄).trans goes₅).trans goes₆)
  | false =>
    obtain ⟨x₅, goes₅, hpage₅, h⟩ := Work.goes_of_note h
    obtain ⟨x₆, goes₆, hpage₆, h⟩ := Work.goes_of_say stage place h
    have lacking : Lacking stage place login timeout w x (x₄.1, x₆) :=
      .mk goes₂ hvisit hcheck (goes₅.trans goes₆) (hpage₆.trans hpage₅)
    obtain ⟨r', c₇, b, hlogin, h⟩ | ⟨e, hlogin, -⟩ := Work.done_of_bind h
    case inr =>
      obtain ⟨r', hr, -⟩ := Work.done_of_try hlogin
      cases hr
    obtain ⟨_, ⟨⟩, performed⟩ := Work.done_of_try hlogin
    cases r' with
    | error e =>
      simp only at h
      split at h
      · rename_i hends
        cases h
        have fails := Ensures.fails lacking performed (.refl _) .refl fun _ => rfl
        rwa [if_pos hends] at fails
      · rename_i hends
        obtain ⟨b₁, goes₈, -, h⟩ := Work.goes_of_note h
        obtain ⟨b₂, goes₉, -, h⟩ := Work.goes_of_say stage place h
        cases h
        have fails := Ensures.fails (y := y) lacking performed (.refl _) (goes₈.trans goes₉)
          fun hfatal => absurd (by simp [hfatal]) hends
        rwa [if_neg hends] at fails
    | ok u =>
      obtain ⟨_, d, hsave, before₈, goes₈, h⟩ | ⟨e, rfl, before, goes⟩ :=
        (own_save stage place _).done_of_bind h
      case inr => exact .breaks lacking performed before goes
      obtain ⟨_, d₁, hvisit, before₉, goes₉, h⟩ | ⟨e, rfl, before, goes⟩ :=
        (own_visit stage place _ _).done_of_bind h
      case inr => exact .breaks lacking performed (before₈.trans before) (goes₈.trans goes)
      obtain ⟨d₂, goes₁₀, hpage, h⟩ := Work.goes_of_note h
      obtain ⟨rfl, hclock, goes₁₁, hworld⟩ :=
        Work.goes_of_setSelector stage place h
      exact .logsIn lacking performed hsave hvisit (by rw [hworld, hpage])
        (hclock ▸ before₈.trans before₉) (((goes₈.trans goes₉).trans goes₁₀).trans goes₁₁)

end Login

end Rehearsal
