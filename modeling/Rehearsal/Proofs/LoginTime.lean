import Mathlib.Algebra.Ring.Nat
import Rehearsal.Proofs.Asking
import Rehearsal.Proofs.LoginCourse

/-! # The time it takes to make sure of a login

All the time goes into calls of the browser, the pauses of the search for a sign of the login, and the
login scenario. The pauses have a limit and so has a visit of a page, which is given up after it. Every
other call is waited for, however long it takes.
-/
namespace Rehearsal

open Timed (Maintains Whatever)

variable {σ α : Type}

namespace Timed

variable {S : Type}

/-- A pause does not go on past a deadline that lies ahead. -/
theorem pause_by_deadline (millis : Nat) {d : Nat} {w : Watch} {c : Clock} (s : S)
    (limited : w.deadline = some d) (ahead : c.now ≤ d) : (pause millis w c s).2.1.now ≤ d := by
  unfold pause
  split
  · exact ahead
  split
  · exact ahead
  have hcutoff : w.cutoff? c.now (c.now + millis) = if d < c.now + millis then some d else none := by
    simp [Watch.cutoff?, limited, Nat.max_eq_right ahead]
  have hstop : (w.cutoff? c.now (c.now + millis)).getD (c.now + millis) ≤ d := by
    rw [hcutoff]
    split
    · exact le_refl d
    · simp only [Option.getD_none]
      omega
  simp only
  split
  · rename_i t hmoment
    have hle := (Option.filter_eq_some_iff.mp hmoment).2
    simp only [decide_eq_true_eq] at hle
    exact hle.trans hstop
  split
  · rename_i t ht
    rw [ht] at hstop
    exact hstop
  · rename_i ht
    rw [ht] at hstop
    exact hstop

end Timed

/-- Nor does a call. -/
theorem Call.run_by_deadline (call : Call σ α) {d : Nat} {w : Watch} {c : Clock} {s : World σ}
    (limited : w.deadline = some d) (ahead : c.now ≤ d) : (call.run w c s).2.1.now ≤ d := by
  induction call generalizing c s with
  | done a => exact ahead
  | look next ih => exact ih _ _ ahead
  | save page next ih => exact ih ahead
  | pause millis next ih =>
    have hpause := Timed.pause_by_deadline millis s limited ahead
    show ((Timed.pause millis >>= fun _ => next.run) w c s).2.1.now ≤ d
    rw [Timed.bind_apply]
    generalize Timed.pause millis w c s = res at hpause ⊢
    obtain ⟨u | _ | _, c₁, s₁⟩ := res
    · exact ih hpause
    · exact hpause
    · exact hpause
  | cancel next ih => exact ih ahead
  | note line next ih => exact ih ahead

/-- A call within a limit is over when that is. -/
theorem Call.now_of_within {call : Call σ α} {limit : Nat} {w : Watch} {c c' : Clock} {s s' : World σ}
    {r : Option α} (free : w.deadline = none)
    (h : Timed.within limit call.run w c s = (.done r, c', s')) : c'.now ≤ c.now + limit := by
  have hlimit := call.run_by_deadline (w := { w with deadline := some (c.now + limit) }) (s := s) rfl
    (Nat.le_add_right c.now limit)
  unfold Timed.within at h
  simp only [free, Timed.earlier] at h
  generalize call.run { w with deadline := some (c.now + limit) } c s = res at h hlimit
  obtain ⟨a | _ | _, c₁, s₁⟩ := res
  · cases h
    exact hlimit
  · cases h
  · simp only [Option.all_none, if_true] at h
    cases h
    exact hlimit

namespace Login

/-- A call that was made of the browser, from one moment to another. -/
structure Made where
  asking : Asking
  begun : Nat
  ended : Nat
  givenUp : Bool

def Made.lasts (m : Made) : Nat := m.ended - m.begun

def Made.isVisit (m : Made) : Bool :=
  match m.asking with
  | .goto _ => true
  | _ => false

/-- The visit of a page is made within a limit. Every other call comes to its own end. -/
inductive Makes (b : Browser σ) (limit : Nat) (w : Watch) :
    Made → Clock × World σ → Clock × World σ → Prop
  | visits {url : String} {r : Option (Answer Unit)} {x y : Clock × World σ}
    (ran : Timed.within limit (b.goto url).run w x.1 x.2 = (.done r, y)) :
    Makes b limit w ⟨.goto url, x.1.now, y.1.now, r.isNone⟩ x y
  | waits {β : Type} {asking : Asking} {call : Call σ β} {a : β} {x y : Clock × World σ}
    (serves : b.Serves asking call) (other : ∀ url, asking ≠ .goto url)
    (ran : call.run w x.1 x.2 = (.done a, y)) :
    Makes b limit w ⟨asking, x.1.now, y.1.now, false⟩ x y

section

variable (stage : Stage σ) (runner : Runner σ) (place : Place) (stack : CallStack) (login : LoginTask)
  (timeout : Nat) (w : Watch)

/-- How the time from `x` to `y` is spent: in the calls made, in rests that sum up to so much, and so much
of it in playing the login scenario. -/
inductive Spends : List Made → Nat → Nat → Clock × World σ → Clock × World σ → Prop
  | still {x y : Clock × World σ} (clock : y.1 = x.1) : Spends [] 0 0 x y
  | makes {m : Made} {x y : Clock × World σ} (makes : Makes stage.browser timeout w m x y) :
    Spends [m] 0 0 x y
  | rests {millis : Nat} {x y : Clock × World σ} (later : y.1.now = x.1.now + millis) :
    Spends [] millis 0 x y
  | plays {millis : Nat} {answer : Except Failure Report} {x y : Clock × World σ}
    (ran : runner login.loginScenario stack place.depth w x.1 x.2 = (.done answer, y))
    (later : y.1.now = x.1.now + millis) : Spends [] 0 millis x y
  | trans {ms ms' : List Made} {rest rest' away away' : Nat} {x y z : Clock × World σ}
    (first : Spends ms rest away x y) (second : Spends ms' rest' away' y z) :
    Spends (ms ++ ms') (rest + rest') (away + away') x z

end

variable {stage : Stage σ} {runner : Runner σ} {place : Place} {stack : CallStack} {login : LoginTask}
  {timeout : Nat} {w : Watch} {x y z : Clock × World σ} {ms : List Made} {rest away : Nat}

theorem Makes.before {b : Browser σ} {limit : Nat} {m : Made} (h : Makes b limit w m x y) :
    x.1.now ≤ y.1.now := by
  have anyone : Undisturbed fun _ : World σ => True := ⟨fun _ _ => trivial, fun _ _ => trivial⟩
  cases h with
  | visits ran => exact ((Maintains.within (maintains_call anyone _)).before trivial ran).now
  | waits serves other ran => exact ((maintains_call anyone _).before trivial ran).now

/-- A visit is over when its limit is. -/
theorem Makes.limited {b : Browser σ} {limit : Nat} {m : Made} (h : Makes b limit w m x y)
    (free : w.deadline = none) (visit : m.isVisit = true) : m.lasts ≤ limit := by
  cases h with
  | visits ran =>
    have hlimit := Call.now_of_within free ran
    simp only [Made.lasts]
    omega
  | @waits β asking call a x y serves other ran =>
    cases asking with
    | goto url => exact absurd rfl (other url)
    | _ => cases visit

theorem Makes.givenUp {b : Browser σ} {limit : Nat} {m : Made} (h : Makes b limit w m x y)
    (gave : m.givenUp = true) : m.isVisit = true := by
  cases h with
  | visits ran => rfl
  | waits serves other ran => cases gave

namespace Spends

theorem total (h : Spends stage runner place stack login timeout w ms rest away x y) :
    y.1.now = x.1.now + (ms.map Made.lasts).sum + rest + away := by
  induction h with
  | still clock => simp [clock]
  | @makes m x y makes =>
    have hbefore := makes.before
    cases makes <;> simp only [List.map_singleton, List.sum_singleton, Made.lasts] <;> omega
  | rests later => simpa using later
  | plays ran later => simpa using later
  | trans _ _ ih ih' =>
    simp only [List.map_append, List.sum_append]
    omega

theorem limited (h : Spends stage runner place stack login timeout w ms rest away x y)
    (free : w.deadline = none) :
    ∀ m ∈ ms, (m.isVisit = true → m.lasts ≤ timeout) ∧ (m.givenUp = true → m.isVisit = true) := by
  induction h with
  | still => simp
  | makes makes => simpa using ⟨makes.limited free, makes.givenUp⟩
  | rests => simp
  | plays => simp
  | trans _ _ ih ih' => exact List.forall_mem_append.mpr ⟨ih, ih'⟩

end Spends

/-- The time from `x` to `y` is spent in at most so many calls other than visits, and in rests of no more
than so much. -/
def Searches (stage : Stage σ) (runner : Runner σ) (place : Place) (stack : CallStack) (login : LoginTask)
    (timeout : Nat) (w : Watch) (calls budget : Nat) (x y : Clock × World σ) : Prop :=
  ∃ ms rest, (∀ m ∈ ms, m.isVisit = false) ∧ ms.length ≤ calls ∧ rest ≤ budget ∧
    Spends stage runner place stack login timeout w ms rest 0 x y

namespace Searches

variable {calls calls' budget budget' : Nat}

theorem still (h : y.1 = x.1) : Searches stage runner place stack login timeout w 0 0 x y :=
  ⟨[], 0, by simp, Nat.zero_le _, Nat.zero_le _, .still h⟩

theorem one {m : Made} (h : Makes stage.browser timeout w m x y) (other : m.isVisit = false) :
    Searches stage runner place stack login timeout w 1 0 x y :=
  ⟨[m], 0, by simpa using other, le_refl _, Nat.zero_le _, .makes h⟩

theorem trans (h : Searches stage runner place stack login timeout w calls budget x y)
    (h' : Searches stage runner place stack login timeout w calls' budget' y z) :
    Searches stage runner place stack login timeout w (calls + calls') (budget + budget') x z := by
  obtain ⟨ms, rest, hms, hcalls, hrest, first⟩ := h
  obtain ⟨ms', rest', hms', hcalls', hrest', second⟩ := h'
  refine ⟨ms ++ ms', _, List.forall_mem_append.mpr ⟨hms, hms'⟩, ?_, by omega, first.trans second⟩
  rw [List.length_append]
  omega

theorem mono (h : Searches stage runner place stack login timeout w calls budget x y)
    (more : calls ≤ calls') (longer : budget ≤ budget') :
    Searches stage runner place stack login timeout w calls' budget' x y := by
  obtain ⟨ms, rest, hms, hcalls, hrest, spends⟩ := h
  exact ⟨ms, rest, hms, hcalls.trans more, hrest.trans longer, spends⟩

theorem later (h : Searches stage runner place stack login timeout w calls budget x y) :
    x.1.now ≤ y.1.now := by
  obtain ⟨ms, rest, -, -, -, spends⟩ := h
  have htotal := spends.total
  omega

end Searches

/-- A moment without the trace of the step. -/
def moment (x : Clock × World σ × Trace) : Clock × World σ := (x.1, x.2.1)

section

variable (stage runner place stack login timeout)

theorem searches_attempt {selector : String} {r : Locate.Attempt}
    (h : Locate.attempt stage.browser .visible selector w x.1 x.2 = (.done r, y)) :
    Searches stage runner place stack login timeout w 1 0 x y := by
  obtain ⟨answer, c₁, s₁, hprobe, h⟩ := Timed.done_of_bind h
  have probes : Searches stage runner place stack login timeout w 1 0 x (c₁, s₁) :=
    .one (.waits (.probe selector) (by simp) hprobe) rfl
  have hy : (c₁, s₁) = y := by
    rcases answer with fault | presence
    · exact (Prod.mk.inj h).2
    · cases presence <;> exact (Prod.mk.inj h).2
  exact hy ▸ probes

/-- A round tries each candidate once at most. -/
theorem searches_round {candidates : List String} {missed : Locate.Missed} {r : Locate.Missed ⊕ Located}
    (h : Locate.round stage.browser .visible missed candidates w x.1 x.2 = (.done r, y)) :
    Searches stage runner place stack login timeout w candidates.length 0 x y := by
  induction candidates generalizing missed x with
  | nil =>
    have hy : x = y := (Prod.mk.inj h).2
    exact .still (by rw [hy])
  | cons selector rest ih =>
    obtain ⟨a, c₁, s₁, hattempt, h⟩ := Timed.done_of_bind h
    have first := searches_attempt stage runner place stack login timeout (y := (c₁, s₁)) hattempt
    have goesOn (second : Searches stage runner place stack login timeout w rest.length 0 (c₁, s₁) y) :
        Searches stage runner place stack login timeout w (selector :: rest).length 0 x y :=
      (first.trans second).mono (by rw [List.length_cons]; omega) (le_refl _)
    cases a with
    | done output =>
      have hy : (c₁, s₁) = y := (Prod.mk.inj h).2
      exact hy ▸ first.mono (by rw [List.length_cons]; omega) (le_refl _)
    | otherText text => exact goesOn (ih (x := (c₁, s₁)) h)
    | notReady reason => exact goesOn (ih (x := (c₁, s₁)) h)

/-- The rests between the rounds do not go past the deadline. -/
theorem searches_rounds {candidates : List String} {deadline fuel : Nat} {other : Option (String × String)}
    {r : Except Failure Located} (due : x.1.now ≤ deadline)
    (h : Locate.rounds stage.browser .visible candidates deadline fuel other w x.1 x.2 = (.done r, y)) :
    Searches stage runner place stack login timeout w (fuel * candidates.length) (deadline - x.1.now) x y := by
  induction fuel generalizing other x with
  | zero =>
    have hy : x = y := (Prod.mk.inj h).2
    exact (Searches.still (by rw [hy])).mono (Nat.zero_le _) (Nat.zero_le _)
  | succ fuel ih =>
    obtain ⟨r', c₁, s₁, hround, h⟩ := Timed.done_of_bind h
    have first := searches_round stage runner place stack login timeout (y := (c₁, s₁)) hround
    have hcalls : candidates.length + fuel * candidates.length = (fuel + 1) * candidates.length := by
      rw [Nat.succ_mul, Nat.add_comm]
    have ended : Searches stage runner place stack login timeout w ((fuel + 1) * candidates.length)
        (deadline - x.1.now) x (c₁, s₁) := first.mono (by omega) (Nat.zero_le _)
    cases r' with
    | inr located =>
      have hy : (c₁, s₁) = y := (Prod.mk.inj h).2
      exact hy ▸ ended
    | inl missed =>
      simp only at h
      rw [Timed.bind_of_done (Timed.now_apply ..)] at h
      split at h
      · have hy : (c₁, s₁) = y := (Prod.mk.inj h).2
        exact hy ▸ ended
      · rename_i hnow
        obtain ⟨u, c₂, s₂, hpause, h⟩ := Timed.done_of_bind h
        -- The pause is cut short at the deadline, so that it and all later ones fit in before that.
        have hslept := Timed.now_of_pause hpause
        have hle : min Locate.interval (deadline - c₁.now) ≤ deadline - c₁.now := Nat.min_le_right ..
        have hlater : x.1.now ≤ c₁.now := first.later
        have second : Searches stage runner place stack login timeout w 0
            (min Locate.interval (deadline - c₁.now)) (c₁, s₁) (c₂, s₂) :=
          ⟨[], _, by simp, le_refl _, le_refl _, .rests hslept⟩
        have third := ih (x := (c₂, s₂)) (by simp only; omega) h
        exact (first.trans (second.trans third)).mono (by omega) (by simp only; omega)

/-- How many calls a search may take. -/
def roundsIn (budget : Nat) : Nat := budget / Locate.interval + 2

theorem searches_locate {candidates : List String} {budget : Nat} {r : Except Failure Located}
    (h : locate stage.browser candidates .visible budget w x.1 x.2 = (.done r, y)) :
    Searches stage runner place stack login timeout w (roundsIn budget * candidates.length) budget x y := by
  unfold locate at h
  rw [Timed.bind_of_done (Timed.now_apply ..)] at h
  exact (searches_rounds stage runner place stack login timeout (Nat.le_add_right ..) h).mono (le_refl _)
    (by omega)

theorem searches_ask {asking : Asking} {call : Call σ (Answer α)} (serves : stage.browser.Serves asking call)
    (other : ∀ url, asking ≠ .goto url) {x y : Clock × World σ × Trace} {r : Except Failure α}
    (h : (Work.ask call).run w x.1 x.2 = (.done r, y)) :
    Searches stage runner place stack login timeout w 1 0 (moment x) (moment y) := by
  obtain ⟨c, s, t⟩ := x
  obtain ⟨c', s', t'⟩ := y
  obtain ⟨h, -⟩ := Timed.done_of_onFirst h
  obtain ⟨answer, c₁, s₁, hcall, h⟩ := Timed.done_of_bind h
  have hy : (c₁, s₁) = (c', s') := by
    cases answer <;> exact (Prod.mk.inj h).2
  cases hy
  refine .one (.waits (x := (c, s)) (y := (c', s')) serves other hcall) ?_
  cases asking with
  | goto url => exact absurd rfl (other url)
  | _ => rfl

end

/-- To note a line and to be done takes no time. -/
theorem still_of_noted {line : String} {a : α} {x y : Clock × World σ × Trace} {r : Except Failure α}
    (h : (Work.note stage place line >>= fun _ => pure a).run w x.1 x.2 = (.done r, y)) : y.1 = x.1 := by
  obtain ⟨z, -, -, h⟩ := Work.goes_of_note h
  exact (congrArg (·.2.1) h).symm

section

variable (stage runner place stack login timeout)

/-- How many calls a check may take. -/
def callsIn (stage : Stage σ) (login : LoginTask) (timeout : Nat) : Nat :=
  1 + roundsIn (min stage.settings.authCheckTimeout timeout) * (login.loggedIn.getD []).length

theorem searches_check {x y : Clock × World σ × Trace} {r : Except Failure Bool}
    (h : (check stage place login timeout).run w x.1 x.2 = (.done r, y)) :
    Searches stage runner place stack login timeout w (callsIn stage login timeout)
      (min stage.settings.authCheckTimeout timeout) (moment x) (moment y) := by
  have hone : 1 ≤ callsIn stage login timeout := Nat.le_add_right ..
  rcases Work.done_of_bind h with ⟨url, c₁, x₁, hurl, h⟩ | ⟨e, hurl, -⟩
  case inr =>
    exact (searches_ask stage runner place stack login timeout .currentUrl (by simp) hurl).mono hone (Nat.zero_le _)
  have asks := searches_ask stage runner place stack login timeout (y := (c₁, x₁)) .currentUrl (by simp) hurl
  have stands {z : Clock × World σ × Trace} (still : z.1 = c₁) :
      Searches stage runner place stack login timeout w (callsIn stage login timeout)
        (min stage.settings.authCheckTimeout timeout) (moment x) (moment z) :=
    (asks.trans (.still still)).mono hone (Nat.zero_le _)
  simp only at h
  split at h
  · exact stands (still_of_noted (x := (c₁, x₁)) h)
  cases hmarks : login.loggedIn with
  | none =>
    rw [hmarks] at h
    exact stands (congrArg (·.2.1) h).symm
  | some candidates =>
    rw [hmarks] at h
    obtain ⟨found, c₂, x₂, hlocate, h⟩ | ⟨e, hlocate, -⟩ := Work.done_of_bind h
    case inr =>
      obtain ⟨found, c₂, x₂, -, hfound⟩ := Timed.done_of_bind hlocate
      cases hfound
    obtain ⟨_, _, _, hfound, ⟨⟩⟩ := Timed.done_of_bind hlocate
    have searches := searches_locate stage runner place stack login timeout (x := (c₁, x₁.1))
      (y := (c₂, x₂.1)) (Timed.done_of_onFirst hfound).1
    have still : y.1 = c₂ := by
      cases found with
      | ok located => exact still_of_noted (x := (c₂, x₂)) h
      | error e =>
        cases e with
        | elementNotFound tried detail => exact still_of_noted (x := (c₂, x₂)) h
        | _ => exact (congrArg (·.2.1) h).symm
    refine (asks.trans (searches.trans (.still still))).mono ?_ (by omega)
    simp [callsIn, hmarks]

theorem searches_load {x y : Clock × World σ × Trace} {r : Except Failure Bool}
    (h : (load stage place login.stateName).run w x.1 x.2 = (.done r, y)) :
    Searches stage runner place stack login timeout w 1 0 (moment x) (moment y) := by
  have stands (clock : y.1 = x.1) :
      Searches stage runner place stack login timeout w 1 0 (moment x) (moment y) :=
    (Searches.still clock).mono (Nat.zero_le _) (le_refl _)
  cases loaded_of_load h with
  | unread get clock page => exact stands clock
  | missing get clock page => exact stands clock
  | @restored session answer s get ran page =>
    have makes :
        Makes stage.browser timeout w ⟨.restore session, x.1.now, y.1.now, false⟩ (moment x) (y.1, s) :=
      .waits (x := moment x) (y := (y.1, s)) (.restore session) (by simp) ran
    exact (Searches.one makes rfl).trans (.still (x := (y.1, s)) (y := moment y) rfl)

theorem spends_visit {x y : Clock × World σ × Trace} {r : Except Failure Unit}
    (h : (visit stage login.checkUrl timeout).run w x.1 x.2 = (.done r, y)) :
    ∃ m, m.isVisit = true ∧
      (m.givenUp = true → r = .error (.timeout Action.ensureAuth.word timeout)) ∧
      Spends stage runner place stack login timeout w [m] 0 0 (moment x) (moment y) := by
  obtain ⟨c, s, t⟩ := x
  obtain ⟨c', s', t'⟩ := y
  obtain ⟨h, -⟩ := Timed.done_of_onFirst h
  obtain ⟨answer, c₁, s₁, hcall, h⟩ := Timed.done_of_bind h
  have makes := Makes.visits (x := (c, s)) (y := (c₁, s₁)) hcall
  have hy : (c₁, s₁) = (c', s') := by
    rcases answer with _ | _ | _ <;> exact (Prod.mk.inj h).2
  cases hy
  refine ⟨_, rfl, ?_, .makes makes⟩
  intro gaveUp
  cases answer with
  | none => exact (Exit.done.inj (Prod.mk.inj h).1).symm
  | some _ => cases gaveUp

end

def Act.isVisit : Act → Bool
  | .visits _ => true
  | _ => false

def Act.isCheck : Act → Bool
  | .checks _ => true
  | _ => false

/-- How many calls other than visits an act may take, where a check takes at most so many. -/
def Act.calls (most : Nat) : Act → Nat
  | .loads _ | .snapshots _ => 1
  | .checks _ => most
  | _ => 0

/-- How the time of some acts is spent: of the calls as many are visits as there are acts of visiting, the
rests are those of the checks, and no other act has the login scenario played. -/
structure Billed (most budget timeout : Nat) (acts : List Act) (ms : List Made) (rest away : Nat) : Prop where
  visits : ms.countP Made.isVisit = acts.countP Act.isVisit
  others : ms.countP (!·.isVisit) ≤ (acts.map (Act.calls most)).sum
  rest : rest ≤ budget * acts.countP Act.isCheck
  away : acts.countP Act.isPlay = 0 → away = 0
  givenUp : ∀ m ∈ ms, m.givenUp = true →
    .visits (.error (.timeout Action.ensureAuth.word timeout)) ∈ acts

theorem Billed.append {most budget : Nat} {acts acts' : List Act} {ms' : List Made} {rest' away' : Nat}
    (h : Billed most budget timeout acts ms rest away)
    (h' : Billed most budget timeout acts' ms' rest' away') :
    Billed most budget timeout (acts ++ acts') (ms ++ ms') (rest + rest') (away + away') where
  visits := by simp only [List.countP_append, h.visits, h'.visits]
  others := by
    have hothers := h.others
    have hothers' := h'.others
    simp only [List.countP_append, List.map_append, List.sum_append]
    omega
  rest := by
    have hrest := h.rest
    have hrest' := h'.rest
    rw [List.countP_append, Nat.mul_add]
    omega
  away := by
    intro none
    rw [List.countP_append] at none
    have haway := h.away (by omega)
    have haway' := h'.away (by omega)
    omega
  givenUp := by
    intro m hm gaveUp
    rcases List.mem_append.mp hm with hm | hm
    · exact List.mem_append_left _ (h.givenUp m hm gaveUp)
    · exact List.mem_append_right _ (h'.givenUp m hm gaveUp)

theorem Searches.billed {most budget calls rests : Nat} {a : Act} (free : w.deadline = none)
    (h : Searches stage runner place stack login timeout w calls rests x y) (other : a.isVisit = false)
    (few : calls ≤ a.calls most) (within : rests ≤ budget * [a].countP Act.isCheck) :
    ∃ ms rest away, Spends stage runner place stack login timeout w ms rest away x y ∧
      Billed most budget timeout [a] ms rest away := by
  obtain ⟨ms, rest, hms, hcalls, hrest, spends⟩ := h
  refine ⟨ms, rest, 0, spends, ?_, ?_, hrest.trans within, fun _ => rfl, ?_⟩
  · simpa [other, List.countP_eq_zero] using hms
  · have hcount : ms.countP (!·.isVisit) ≤ ms.length := List.countP_le_length
    simp only [List.map_singleton, List.sum_singleton]
    omega
  · intro m hm gaveUp
    have hvisit := (spends.limited free m hm).2 gaveUp
    rw [hms m hm] at hvisit
    cases hvisit

theorem Does.billed {a : Act} {x y : Clock × World σ × Trace} (free : w.deadline = none)
    (ends : Maintains (fun _ => True) Whatever (runner login.loginScenario stack place.depth))
    (h : Does stage place runner stack login timeout w a x y) :
    ∃ ms rest away, Spends stage runner place stack login timeout w ms rest away (moment x) (moment y) ∧
      Billed (callsIn stage login timeout) (min stage.settings.authCheckTimeout timeout) timeout [a]
        ms rest away := by
  cases h with
  | @enters phase x y ran =>
    have clock : y.1 = x.1 := by
      obtain ⟨c, s, t⟩ := x
      rw [enter_run] at ran
      exact (congrArg (·.2.1) ran).symm
    exact (Searches.still (x := moment x) (y := moment y) clock).billed free rfl (Nat.zero_le _) (Nat.zero_le _)
  | loads ran beside =>
    exact (searches_load stage runner place stack login timeout ran).billed free rfl (le_refl _) (Nat.zero_le _)
  | visits ran beside =>
    obtain ⟨m, hvisit, hgave, spends⟩ := spends_visit stage runner place stack login timeout ran
    refine ⟨[m], 0, 0, spends, by simp [hvisit, Act.isVisit], by simp [hvisit], Nat.zero_le _, fun _ => rfl, ?_⟩
    rintro m' hm' gaveUp
    obtain rfl : m' = m := by simpa using hm'
    simp [hgave gaveUp]
  | checks ran beside =>
    exact (searches_check stage runner place stack login timeout ran).billed free rfl (le_refl _)
      (by simp [Act.isCheck])
  | @plays answer c c' s s' t ran =>
    have before := (ends.before trivial ran).now
    have later : c'.now = c.now + (c'.now - c.now) := by omega
    refine ⟨[], 0, c'.now - c.now, .plays (x := (c, s)) (y := (c', s')) ran later, rfl, Nat.zero_le _,
      Nat.zero_le _, ?_, ?_⟩
    · simp [Act.isPlay]
    · simp
  | @snapshots answer c c' s s' t ran beside =>
    have makes : Makes stage.browser timeout w ⟨.snapshot, c.now, c'.now, false⟩ (c, s) (c', s') :=
      .waits (x := (c, s)) (y := (c', s')) .snapshot (by simp) ran
    exact (Searches.one makes rfl).billed free rfl (le_refl _) (Nat.zero_le _)
  | @puts key session answer desk lines c s t put =>
    exact (Searches.still (x := (c, s)) (y := (c, { s with desk }.say lines)) rfl).billed free rfl (Nat.zero_le _)
      (Nat.zero_le _)

theorem Happens.billed {acts : List Act} {x y : Clock × World σ × Trace} (free : w.deadline = none)
    (ends : Maintains (fun _ => True) Whatever (runner login.loginScenario stack place.depth))
    (h : Happens stage place runner stack login timeout w acts x y) :
    ∃ ms rest away, Spends stage runner place stack login timeout w ms rest away (moment x) (moment y) ∧
      Billed (callsIn stage login timeout) (min stage.settings.authCheckTimeout timeout) timeout acts
        ms rest away := by
  induction h with
  | nil x => exact ⟨[], 0, 0, .still rfl, rfl, Nat.zero_le _, Nat.zero_le _, fun _ => rfl, by simp⟩
  | @act a acts x y z does _ ih =>
    obtain ⟨ms, rest, away, first, billed⟩ := does.billed free ends
    obtain ⟨ms', rest', away', second, billed'⟩ := ih
    exact ⟨_, _, _, first.trans second, billed.append billed'⟩
  | @idle acts x y z idle _ ih =>
    obtain ⟨ms, rest, away, second, billed⟩ := ih
    have first : Spends stage runner place stack login timeout w [] 0 0 (moment x) (moment y) :=
      .still idle.clock
    refine ⟨_, _, _, first.trans second, ?_⟩
    simpa using billed

namespace Course

variable {k : Session.Key} {scenario : String} {acts : List Act} {r : Except Failure Unit}

theorem visits (h : Course k scenario acts r) : acts.countP Act.isVisit ≤ 2 := by
  cases h <;> simp [playing, seeking, Act.isVisit, List.countP_cons]

theorem checks (h : Course k scenario acts r) : acts.countP Act.isCheck ≤ 1 := by
  cases h <;> simp [playing, seeking, Act.isCheck, List.countP_cons]

theorem calls (h : Course k scenario acts r) (most : Nat) : (acts.map (Act.calls most)).sum ≤ most + 2 := by
  cases h <;> simp [playing, seeking, Act.calls] <;> omega

/-- A visit that fails is the end. -/
theorem of_visit (h : Course k scenario acts r) {e : Failure} (visit : .visits (.error e) ∈ acts) :
    r = .error e := by
  cases h <;> simp_all [playing, seeking]

end Course

/-- Where no visit takes longer than one time and no other call longer than another, so it is for all of
them together. -/
theorem sum_lasts_le {limit most : Nat} (visits : ∀ m ∈ ms, m.isVisit = true → m.lasts ≤ limit)
    (others : ∀ m ∈ ms, m.isVisit = false → m.lasts ≤ most) :
    (ms.map Made.lasts).sum ≤ limit * ms.countP Made.isVisit + most * ms.countP (!·.isVisit) := by
  induction ms with
  | nil => simp
  | cons m ms ih =>
    obtain ⟨hm, hms⟩ := List.forall_mem_cons.mp visits
    obtain ⟨hm', hms'⟩ := List.forall_mem_cons.mp others
    have hsum := ih hms hms'
    simp only [List.map_cons, List.sum_cons, List.countP_cons]
    cases hvisit : m.isVisit with
    | true =>
      have hlasts := hm hvisit
      simp [Nat.mul_add]
      omega
    | false =>
      have hlasts := hm' hvisit
      simp [Nat.mul_add]
      omega

/-- How the time that it takes to make sure of a login is spent, but for that of the login scenario. -/
structure Paced (stage : Stage σ) (login : LoginTask) (timeout : Nat) (ms : List Made) (rest : Nat)
    (r : Except Failure Unit) : Prop where
  /-- The search for a sign of the login rests no longer than its budget. -/
  rests : rest ≤ min stage.settings.authCheckTimeout timeout
  visits : ms.countP Made.isVisit ≤ 2
  others : ms.countP (!·.isVisit) ≤ callsIn stage login timeout + 2
  /-- A visit takes no longer than the time limit of the step. -/
  limited : ∀ m ∈ ms, m.isVisit = true → m.lasts ≤ timeout
  /-- Nothing else is given up, and that is a failure of the step. -/
  givenUp : ∀ m ∈ ms, m.givenUp = true →
    m.isVisit = true ∧ r = .error (.timeout Action.ensureAuth.word timeout)
  /-- Only with a limit for the other calls there is one for the time. -/
  prompt : ∀ most, (∀ m ∈ ms, m.isVisit = false → m.lasts ≤ most) → (ms.map Made.lasts).sum + rest ≤
    timeout * 2 + most * (callsIn stage login timeout + 2) + min stage.settings.authCheckTimeout timeout

/-- The time that it takes to make sure of a login is that of the calls of the browser, of which visits
alone have a limit, of the rests between the rounds of a search, which have one, and of the login scenario. -/
theorem ensure_paced (stage : Stage σ) (runner : Runner σ) (place : Place) (stack : CallStack)
    (login : LoginTask) (timeout : Nat) (w : Watch) (c : Clock) (s : World σ) (t : Trace)
    (ends : Maintains (fun _ => True) Whatever (runner login.loginScenario stack place.depth))
    (free : w.deadline = none)
    (calm : ((ensure stage runner place stack login timeout).run w c (s, t)).2.1.isCancelled = false) :
    ∃ r y acts ms rest away,
      (ensure stage runner place stack login timeout).run w c (s, t) = (.done r, y) ∧
      Happens stage place runner stack login timeout w acts (c, s, t) y ∧
      Spends stage runner place stack login timeout w ms rest away (c, s) (moment y) ∧
      y.1.now = c.now + ((ms.map Made.lasts).sum + rest) + away ∧
      ((∀ answer, .plays answer ∉ acts) → away = 0) ∧ Paced stage login timeout ms rest r := by
  obtain ⟨r, y, acts, ran, happens, course⟩ :=
    course_of_calm stage place runner stack login timeout ends free calm
  obtain ⟨ms, rest, away, spends, billed⟩ := happens.billed free ends
  have htotal := spends.total
  have limited := spends.limited free
  have rests : rest ≤ min stage.settings.authCheckTimeout timeout :=
    billed.rest.trans ((Nat.mul_le_mul_left _ course.checks).trans_eq (Nat.mul_one _))
  have visits : ms.countP Made.isVisit ≤ 2 := billed.visits ▸ course.visits
  have others : ms.countP (!·.isVisit) ≤ callsIn stage login timeout + 2 :=
    billed.others.trans (course.calls _)
  refine ⟨r, y, acts, ms, rest, away, ran, happens, spends, ?_, ?_, rests, visits, others,
    fun m hm => (limited m hm).1, ?_, ?_⟩
  · simp only [moment] at htotal
    omega
  · intro unplayed
    apply billed.away
    rw [List.countP_eq_zero]
    intro a ha
    cases a with
    | plays answer => exact absurd ha (unplayed answer)
    | _ => simp [Act.isPlay]
  · intro m hm gaveUp
    exact ⟨(limited m hm).2 gaveUp, course.of_visit (billed.givenUp m hm gaveUp)⟩
  · intro most slow
    have hsum := sum_lasts_le (fun m hm => (limited m hm).1) slow
    have hvisits := Nat.mul_le_mul_left timeout visits
    have hothers := Nat.mul_le_mul_left most others
    omega

/-- A browser that takes so long to restore a session. -/
def dragging (millis : Nat) : Browser Unit :=
  { Browser.still with restore := fun _ => .pause millis (.done (.ok ())) }

/-- A stage with that browser, where anybody is logged in. -/
def draggingStage (millis : Nat) : Stage Unit := { Stage.bare [] with browser := dragging millis }

/-- No login scenario is ever played. -/
def unplayed : Runner Unit := fun _ _ _ => pure (.error .cancelled)

def restoring : LoginTask := ⟨"http://app.test/", "a", "s", none, ""⟩

/-- A world with a saved session. -/
def remembering : World Unit := .ofPage () (Preflight.nowhere.putSession ⟨"default", "s"⟩ ⟨[], []⟩)

/-- The whole of that time is spent, and the step succeeds. -/
theorem ensure_dragging (millis : Nat) :
    ∃ x, (ensure (draggingStage (millis + 1)) unplayed ⟨"r", 0, 0⟩ (.root "r") restoring 150).run .none
      .start (remembering, .empty) = (.done (.ok ()), ⟨0 + (millis + 1), false, none⟩, x) :=
  ⟨_, rfl⟩

/-- No bound follows from the time limit of the step and the budget of the search. -/
theorem not_bounded_by_limits :
    ¬∃ bound : Nat → Nat → Nat, ∀ (stage : Stage Unit) (login : LoginTask) (timeout : Nat) (c : Clock)
      (x : World Unit × Trace) (r : Except Failure Unit) (y : Clock × World Unit × Trace),
      (ensure stage unplayed ⟨"r", 0, 0⟩ (.root "r") login timeout).run .none c x = (.done r, y) →
        y.1.now ≤ c.now + bound timeout stage.settings.authCheckTimeout := by
  rintro ⟨bound, bounded⟩
  -- The limits do not depend on the browser, so there is one that is slower than they allow.
  let longest := bound 150 (Stage.bare []).settings.authCheckTimeout
  obtain ⟨x, ran⟩ := ensure_dragging longest
  have hlong := bounded (draggingStage (longest + 1)) restoring 150 .start (remembering, .empty) _ _ ran
  have hlate : 0 + (longest + 1) ≤ 0 + longest := hlong
  omega

/-- A session is restored for a second by a step that has 150 milliseconds. -/
theorem ensure_paced_dragging :
    ∃ acts ms rest y,
      (ensure (draggingStage 1000) unplayed ⟨"r", 0, 0⟩ (.root "r") restoring 150).run .none .start
        (remembering, .empty) = (.done (.ok ()), y) ∧ y.1.now = 1000 ∧
      Happens (draggingStage 1000) ⟨"r", 0, 0⟩ unplayed (.root "r") restoring 150 .none acts
        (.start, remembering, .empty) y ∧
      Paced (draggingStage 1000) restoring 150 ms rest (.ok ()) := by
  obtain ⟨r, y, acts, ms, rest, away, ran, happens, -, -, -, paced⟩ :=
    ensure_paced (draggingStage 1000) unplayed ⟨"r", 0, 0⟩ (.root "r") restoring 150 .none .start
      remembering .empty (.pure trivial) rfl rfl
  obtain ⟨x, ran'⟩ := ensure_dragging 999
  have both := ran'.symm.trans ran
  cases both
  exact ⟨acts, ms, rest, _, ran, rfl, happens, paced⟩

end Login

end Rehearsal
