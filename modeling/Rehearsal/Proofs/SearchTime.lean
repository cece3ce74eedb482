import Rehearsal.Proofs.Promptness
import Rehearsal.Proofs.Rounds

/-! # The time of a search

A browser whose calls take no time is asked at even intervals and once more at the deadline. A search
with it ends at the deadline at the latest, so that the limit of its step, one interval further on, is
never met. With any other browser it is that limit which ends the step.
-/
namespace Rehearsal

open Timed (AtOnce Maintains Whatever)

variable {σ α β : Type}

namespace Timed

variable {S T : Type} {P Q : α → Prop} {R : β → Prop} {x : Timed S α} {m n : Nat}

/-- Work that is done within so much time unless it is cancelled, where no deadline comes before. -/
def Spans (millis : Nat) (P : α → Prop) (x : Timed S α) : Prop :=
  ∀ w c s, (∀ d, w.deadline = some d → c.now + millis ≤ d) →
    (∃ y, x w c s = (.cancelled, y)) ∨
      ∃ a y, x w c s = (.done a, y) ∧ y.1.now ≤ c.now + millis ∧ P a

namespace Spans

theorem of_atOnce (hx : AtOnce P x) : Spans 0 P x := by
  intro w c s _
  obtain ⟨a, s', hdone, ha⟩ := hx c s
  exact .inr ⟨a, _, hdone w, Nat.le_refl _, ha⟩

theorem pure {a : α} (h : P a) : Spans 0 P (pure a : Timed S α) := of_atOnce (.pure h)

theorem mono (hx : Spans m Q x) (h : ∀ a, Q a → P a) : Spans m P x := by
  intro w c s far
  obtain hcancelled | ⟨a, y, hdone, hnow, ha⟩ := hx w c s far
  · exact .inl hcancelled
  · exact .inr ⟨a, y, hdone, hnow, h a ha⟩

theorem upTo (hx : Spans m P x) (h : m ≤ n) : Spans n P x := by
  intro w c s far
  have hfirst : ∀ d, w.deadline = some d → c.now + m ≤ d := by
    intro d hd
    have hle := far d hd
    omega
  obtain hcancelled | ⟨a, y, hdone, hnow, ha⟩ := hx w c s hfirst
  · exact .inl hcancelled
  · exact .inr ⟨a, y, hdone, by omega, ha⟩

theorem bind {f : α → Timed S β} (hx : Spans m Q x) (hf : ∀ a, Q a → Spans n R (f a)) :
    Spans (m + n) R (x >>= f) := by
  intro w c s far
  have hfirst : ∀ d, w.deadline = some d → c.now + m ≤ d := by
    intro d hd
    have hle := far d hd
    omega
  obtain ⟨y, hcancelled⟩ | ⟨a, ⟨c₁, s₁⟩, hdone, hnow, ha⟩ := hx w c s hfirst
  · exact .inl ⟨y, by rw [bind_apply, hcancelled]⟩
  · have hsecond : ∀ d, w.deadline = some d → c₁.now + n ≤ d := by
      intro d hd
      have hle := far d hd
      simp only at hnow
      omega
    rw [bind_of_done hdone]
    obtain hcancelled | ⟨b, y, hdone', hnow', hb⟩ := hf a ha w c₁ s₁ hsecond
    · exact .inl hcancelled
    · refine .inr ⟨b, y, hdone', ?_, hb⟩
      simp only at hnow
      omega

/-- What takes no time at first takes as long as the rest. -/
theorem stillThen {f : α → Timed S β} (hx : Spans 0 Q x) (hf : ∀ a, Q a → Spans n R (f a)) :
    Spans n R (x >>= f) := by
  have h := bind hx hf
  rwa [Nat.zero_add] at h

theorem onFirst (hx : Spans m P x) : Spans m P (onFirst x : Timed (S × T) α) := by
  rintro w c ⟨s, t⟩ far
  obtain ⟨y, hcancelled⟩ | ⟨a, y, hdone, hnow, ha⟩ := hx w c s far
  · refine .inl ⟨(y.1, y.2, t), ?_⟩
    unfold Timed.onFirst
    rw [hcancelled]
  · exact .inr ⟨a, (y.1, y.2, t), onFirst_of_done hdone t, hnow, ha⟩

theorem pause (millis : Nat) : Spans millis Whatever (pause millis : Timed S Unit) := by
  intro w c s far
  by_cases hzero : millis = 0
  · exact .inr ⟨(), (c, s), by simp [Timed.pause, hzero], Nat.le_add_right _ _, trivial⟩
  have hcutoff : w.cutoff? c.now (c.now + millis) = none := by
    cases hd : w.deadline with
    | none => simp [Watch.cutoff?, hd]
    | some d => simpa [Watch.cutoff?, hd] using far d hd
  unfold Timed.pause
  rw [if_neg hzero]
  by_cases hstopped : (w.cancellable && c.isCancelled) = true
  · rw [if_pos hstopped]
    exact .inl ⟨_, rfl⟩
  rw [if_neg hstopped]
  simp only [hcutoff, Option.getD_none]
  cases hmoment : (w.cancelMoment? c).filter (· ≤ c.now + millis) with
  | some t => exact .inl ⟨_, rfl⟩
  | none => exact .inr ⟨(), _, rfl, Nat.le_refl _, trivial⟩

end Spans

end Timed

open Timed (Spans)

/-- Every call of the browser takes no time, whoever watches. -/
def Browser.Instant (b : Browser σ) : Prop :=
  ∀ {α : Type} {asking : Asking} {call : Call σ α}, b.Serves asking call →
    ∀ w c s, ∃ a y, call.run w c s = (.done a, y) ∧ y.1.now = c.now

/-- A failure other than that of a time limit. -/
def Failure.Untimed (e : Failure) : Prop := ∀ action millis, e ≠ .timeout action millis

section

variable {b : Browser σ} (instant : b.Instant)

include instant

theorem Browser.Instant.spans {asking : Asking} {call : Call σ α} (serves : b.Serves asking call) :
    Spans 0 Whatever call.run := by
  intro w c s _
  obtain ⟨a, y, hdone, hnow⟩ := instant serves w c s
  exact .inr ⟨a, y, hdone, by omega, trivial⟩

namespace Locate

theorem spans_attempt (wanted : Wanted) (selector : String) :
    Spans 0 Whatever (attempt b wanted selector) := by
  unfold attempt
  apply Spans.stillThen (instant.spans (.probe selector))
  intro r _
  cases r with
  | error fault => exact .pure trivial
  | ok found =>
    cases wanted with
    | visible => cases found <;> exact .pure trivial
    | perform operation =>
      simp only
      split
      · exact .pure trivial
      split
      · exact .pure trivial
      · apply Spans.stillThen (instant.spans (.perform selector operation))
        intro r _
        cases r <;> exact .pure trivial
    | textContains expected =>
      simp only
      split
      · exact .pure trivial
      · apply Spans.stillThen (instant.spans (.perform selector .readText))
        intro r _
        cases r <;> exact .pure trivial

theorem spans_round (wanted : Wanted) (missed : Missed) (candidates : List String) :
    Spans 0 Whatever (round b wanted missed candidates) := by
  induction candidates generalizing missed with
  | nil => exact .pure trivial
  | cons selector rest ih =>
    rw [round]
    apply Spans.stillThen (spans_attempt instant wanted selector)
    intro a _
    cases a with
    | done output => exact .pure trivial
    | otherText text => exact ih _
    | notReady reason => exact ih _

omit instant in
theorem failure_untimed (wanted : Wanted) (candidates : List String) (missed : Missed) :
    (failure wanted candidates missed).Untimed := by
  unfold failure
  split <;> exact nofun

/-- Rounds go on until a deadline, and are over at it at the latest. -/
theorem rounds_by_deadline (wanted : Wanted) (candidates : List String) {deadline fuel : Nat}
    {other : Option (String × String)} {w : Watch} {c : Clock} {s : World σ} (due : c.now ≤ deadline)
    (far : ∀ d, w.deadline = some d → deadline ≤ d) :
    (∃ y, rounds b wanted candidates deadline fuel other w c s = (.cancelled, y)) ∨
      ∃ r y, rounds b wanted candidates deadline fuel other w c s = (.done r, y) ∧
        y.1.now ≤ deadline ∧ Answers Whatever Failure.Untimed r := by
  induction fuel generalizing other c s with
  | zero => exact .inr ⟨_, _, rfl, due, failure_untimed _ _ _⟩
  | succ fuel ih =>
    have hround := spans_round instant wanted ⟨[], other⟩ candidates w c s fun d hd => due.trans (far d hd)
    rw [rounds]
    obtain ⟨y, hcancelled⟩ | ⟨a, ⟨c₁, s₁⟩, hdone, hnow, -⟩ := hround
    · exact .inl ⟨y, by rw [Timed.bind_apply, hcancelled]⟩
    rw [Timed.bind_of_done hdone]
    simp only [Nat.add_zero] at hnow
    cases a with
    | inr located => exact .inr ⟨_, _, rfl, hnow.trans due, trivial⟩
    | inl missed =>
      simp only
      rw [Timed.bind_of_done (Timed.now_apply ..)]
      by_cases hlate : deadline ≤ c₁.now
      · rw [if_pos hlate]
        exact .inr ⟨_, _, rfl, hnow.trans due, failure_untimed _ _ _⟩
      rw [if_neg hlate]
      have hrest : c₁.now + min interval (deadline - c₁.now) ≤ deadline := by omega
      have hpause := Spans.pause (min interval (deadline - c₁.now)) w c₁ s₁ fun d hd =>
        hrest.trans (far d hd)
      obtain ⟨y, hcancelled⟩ | ⟨u, ⟨c₂, s₂⟩, hdone', hnow', -⟩ := hpause
      · exact .inl ⟨y, by rw [Timed.bind_apply, hcancelled]⟩
      · rw [Timed.bind_of_done hdone']
        exact ih (hnow'.trans hrest)

theorem spans_locate (candidates : List String) (wanted : Wanted) (timeout : Nat) :
    Spans timeout (Answers Whatever Failure.Untimed) (locate b candidates wanted timeout) := by
  intro w c s far
  unfold locate
  rw [Timed.bind_of_done (Timed.now_apply ..)]
  exact rounds_by_deadline instant wanted candidates (Nat.le_add_right _ _) far

/-! ### When the rounds are made -/

theorem Path.now_eq {w : Watch} {ms : List Move} {x y : Clock × World σ} (h : Path b w ms x y)
    (calls : ∀ m ∈ ms, ∀ millis, m ≠ .rested millis) : y.1.now = x.1.now := by
  induction h with
  | nil => rfl
  | @cons m ms x y z first rest ih =>
    rw [ih fun m hm => calls m (List.mem_cons_of_mem _ hm)]
    cases m with
    | probed selector answer =>
      obtain ⟨a, y', hdone, hnow⟩ := instant (.probe selector) w x.1 x.2
      cases hdone.symm.trans first
      exact hnow
    | performed selector operation answer =>
      obtain ⟨a, y', hdone, hnow⟩ := instant (.perform selector operation) w x.1 x.2
      cases hdone.symm.trans first
      exact hnow
    | rested millis => exact absurd rfl (calls _ List.mem_cons_self millis)

omit instant in
theorem not_rested_of_tries {tries : List Try} :
    ∀ m ∈ tries.flatMap Try.moves, ∀ millis, m ≠ .rested millis := by
  rintro m hm millis rfl
  obtain ⟨t, -, ht⟩ := List.mem_flatMap.1 hm
  cases t <;> simp [Try.moves] at ht

/-- Round number `k` is made `k` intervals after the beginning, or at the deadline when that comes
first, and takes no time. -/
theorem Search.round_at {w : Watch} {deadline : Nat} {rounds : List Round} {moves : List Move}
    {x y : Clock × World σ} (h : Search b w deadline rounds moves x y) (due : x.1.now ≤ deadline) :
    (∀ k round, rounds[k]? = some round →
      round.begun = min (x.1.now + interval * k) deadline ∧ round.ended = round.begun) ∧
    rounds.length ≤ (deadline - x.1.now + 99) / interval + 1 ∧
    ∃ k, rounds.length = k + 1 ∧ y.1.now = min (x.1.now + interval * k) deadline := by
  induction h with
  | @last tries x y path =>
    have hstill := path.now_eq instant not_rested_of_tries
    refine ⟨?_, by simp, 0, rfl, by omega⟩
    intro k round hround
    cases k with
    | zero =>
      cases hround
      exact ⟨by simp only; omega, hstill⟩
    | succ k => simp at hround
  | @again tries rounds moves x y z u path early rest later ih =>
    have hstill := path.now_eq instant not_rested_of_tries
    have hslept := Timed.now_of_pause rest
    have hnext : z.1.now = min (x.1.now + interval) deadline := by omega
    obtain ⟨hrounds, hfew, k, hlength, hnow⟩ := ih (by omega)
    have hlater : ∀ k, min (z.1.now + interval * k) deadline = min (x.1.now + interval * (k + 1)) deadline := by
      intro k
      rw [hnext, Nat.mul_succ]
      omega
    refine ⟨?_, ?_, k + 1, by rw [List.length_cons, hlength], ?_⟩
    · intro j round hround
      cases j with
      | zero =>
        cases hround
        exact ⟨by simp only; omega, hstill⟩
      | succ j =>
        rw [List.getElem?_cons_succ] at hround
        rw [← hlater]
        exact hrounds j round hround
    · rw [List.length_cons]
      simp only [interval] at hnext hfew ⊢
      omega
    · rw [hnow, hlater]

omit instant in
/-- The candidate did what is wanted whenever it was tried, from this moment on. -/
def StandsFrom (wanted : Wanted) (selector : String) (moment : Nat) (rounds : List Round) : Prop :=
  ∀ round ∈ rounds, moment ≤ round.begun → ∀ t ∈ round.tries, t.selector = selector → t.Succeeds wanted

omit instant in
/-- No candidate did what is wanted before this moment. -/
def NoneBefore (wanted : Wanted) (moment : Nat) (rounds : List Round) : Prop :=
  ∀ round ∈ rounds, round.begun < moment → ∀ t ∈ round.tries, ¬ t.Succeeds wanted

/-- The rounds of a search that began at `start` and was over at `now`, when calls take no time. -/
structure Paced (wanted : Wanted) (candidates : List String) (timeout start now : Nat)
    (rounds : List Round) (r : Except Failure Located) : Prop where
  moments : ∀ k round, rounds[k]? = some round →
    round.begun = start + min (interval * k) timeout ∧ round.ended = round.begun
  few : rounds.length ≤ (timeout + 99) / interval + 1
  lasted : ∃ k, rounds.length = k + 1 ∧ now = start + min (interval * k) timeout
  lost : ∀ e, r = .error e → now = start + timeout
  caught : ∀ t ≤ timeout, ∀ selector ∈ candidates, StandsFrom wanted selector (start + t) rounds →
    (∃ located, r = .ok located) ∧
      ∀ k, t ≤ min (interval * k) timeout → now ≤ start + min (interval * k) timeout
  awaited : ∀ t, NoneBefore wanted (start + t) rounds → (∃ located, r = .ok located) → start + t ≤ now

theorem Searched.paced {w : Watch} {wanted : Wanted} {candidates : List String} {timeout : Nat}
    {rounds : List Round} {moves : List Move} {x y : Clock × World σ} {r : Except Failure Located}
    (h : Searched b w wanted candidates (x.1.now + timeout) rounds moves x y r) :
    Paced wanted candidates timeout x.1.now y.1.now rounds r := by
  obtain ⟨hrounds, hfew, n, hlength, hover⟩ := h.search.round_at instant (Nat.le_add_right _ _)
  have hmoments : ∀ k round, rounds[k]? = some round →
      round.begun = x.1.now + min (interval * k) timeout ∧ round.ended = round.begun := by
    intro k round hround
    obtain ⟨hbegun, hended⟩ := hrounds k round hround
    exact ⟨by omega, hended⟩
  have hnow : y.1.now = x.1.now + min (interval * n) timeout := by omega
  have hlast : ∀ last, rounds.getLast? = some last → rounds[n]? = some last := by
    intro last hgets
    rw [List.getLast?_eq_getElem?, hlength] at hgets
    exact hgets
  have hlost : ∀ e, r = .error e → y.1.now = x.1.now + timeout := by
    intro e hr
    obtain ⟨last, hgets, -, hlate, -⟩ := h.lost e hr
    obtain ⟨hbegun, hended⟩ := hmoments n last (hlast last hgets)
    omega
  constructor
  case moments => exact hmoments
  case few =>
    rw [Nat.add_sub_cancel_left] at hfew
    exact hfew
  case lasted => exact ⟨n, hlength, hnow⟩
  case lost => exact hlost
  case caught =>
    intro t ht selector hselector stands
    -- a round with every candidate in it, at that moment or later, cannot have failed
    have hfull : ∀ k round, rounds[k]? = some round → t ≤ min (interval * k) timeout →
        ¬ round.Fails wanted candidates := by
      intro k round hround hmoment fails
      have hbegun := (hmoments k round hround).1
      have hmem := hselector
      rw [← fails.order] at hmem
      obtain ⟨u, hu, hsame⟩ := List.mem_map.1 hmem
      have hsucceeds := stands round (List.mem_of_getElem? hround) (by omega) u hu hsame
      exact fails.failed u hu hsucceeds
    constructor
    · cases r with
      | ok located => exact ⟨located, rfl⟩
      | error e =>
        obtain ⟨last, hgets, fails, -⟩ := h.lost e rfl
        have hend := hlost e rfl
        exact absurd fails (hfull n last (hlast last hgets) (by omega))
    · intro k hk
      by_cases hkn : n ≤ k
      · have hmul : interval * n ≤ interval * k := Nat.mul_le_mul_left _ hkn
        omega
      · have hin : k < rounds.dropLast.length := by
          rw [List.length_dropLast]
          omega
        have hround : rounds[k]? = some (rounds.dropLast[k]) := by
          rw [List.getElem_dropLast]
          exact List.getElem?_eq_getElem _
        exact absurd (h.full _ (List.getElem_mem hin)) (hfull k _ hround hk)
  case awaited =>
    rintro t hnone ⟨located, rfl⟩
    obtain ⟨last, before, u, front, hgets, finds, -⟩ := h.found located rfl
    have hbegun := (hmoments n last (hlast last hgets)).1
    by_contra hearly
    have hu : u ∈ last.tries := by simp [finds.cut]
    exact hnone last (List.mem_of_getLast? hgets) (by omega) u hu ⟨_, finds.result⟩

end Locate

end

/-! ### The steps that search -/

/-- What is done with an element that is searched for. -/
def Deed.searches : Deed → Bool
  | .element .. | .waitVisible _ | .assertText .. | .extract .. | .upload .. | .pasteImage .. => true
  | _ => false

/-- Work of a step that takes so much time at most and does not fail for a time limit. -/
def Work.Spans (millis : Nat) (work : Work σ α) : Prop :=
  Timed.Spans millis (Answers Whatever Failure.Untimed) work.run

namespace Work.Spans

variable {work : Work σ α} {f : α → Work σ β} {m n : Nat}

theorem bind (hx : Spans m work) (hf : ∀ a, Spans n (f a)) : Spans (m + n) (work >>= f) := by
  refine Timed.Spans.bind hx ?_
  intro r hr
  cases r with
  | ok a => exact hf a
  | error e =>
    have hfails : Timed.Spans 0 (Answers Whatever Failure.Untimed)
        (pure (.error e) : Timed (World σ × Trace) (Except Failure β)) := .pure hr
    exact hfails.upTo (Nat.zero_le n)

/-- What takes no time in the end takes as long as what comes before. -/
theorem thenStill (hx : Spans m work) (hf : ∀ a, Spans 0 (f a)) : Spans m (work >>= f) := hx.bind hf

theorem stillThen (hx : Spans 0 work) (hf : ∀ a, Spans n (f a)) : Spans n (work >>= f) := by
  have h := hx.bind hf
  rwa [Nat.zero_add] at h

theorem ofWorld {x : Timed (World σ) (Except Failure α)}
    (hx : Timed.Spans m (Answers Whatever Failure.Untimed) x) : Spans m (Work.ofWorld x) := hx.onFirst

theorem lift {x : Timed (World σ × Trace) α} (hx : AtOnce Whatever x) : Spans 0 (ExceptT.lift x) := by
  show Timed.Spans 0 _ (x >>= fun a => pure (Except.ok a))
  exact Timed.Spans.stillThen (.of_atOnce hx) fun _ _ => .pure trivial

end Work.Spans

section

variable {stage : Stage σ} {place : Place}

theorem spans_note (line : String) : Work.Spans 0 (Work.note stage place line) := .lift (atOnce_note place line)

theorem spans_setSelector (selector : String) : Work.Spans 0 (Work.setSelector selector : Work σ Unit) :=
  .lift (.modify _)

/-- The line about an element that was found, and its selector. -/
theorem spans_found (line selector : String) : Work.Spans 0 (do
    Work.note stage place line
    Work.setSelector selector : Work σ Unit) :=
  (spans_note line).thenStill fun _ => spans_setSelector selector

variable (instant : stage.browser.Instant)

include instant

theorem spans_find (candidates : List String) (wanted : Wanted) (timeout : Nat) :
    Work.Spans timeout (Perform.find stage candidates wanted timeout) :=
  .ofWorld (Locate.spans_locate instant candidates wanted timeout)

/-- A search, and what is said of the element that it found. -/
theorem spans_sought (candidates : List String) (wanted : Wanted) (timeout : Nat) (line : Located → String) :
    Work.Spans timeout (do
      let located ← Perform.find stage candidates wanted timeout
      Work.note stage place (line located)
      Work.setSelector located.selector) := by
  apply (spans_find instant candidates wanted timeout).thenStill
  exact fun located => spans_found _ _

theorem spans_paste (candidates : List String) (path : Disk.Path) (timeout : Nat) :
    Work.Spans timeout (Perform.paste stage place candidates path timeout) := by
  have hpaste : ∀ content, Work.Spans 0
      (Work.askScript (stage.browser.evaluate (Paste.script path content))) := by
    intro content
    apply Work.Spans.ofWorld
    apply Timed.Spans.stillThen (instant.spans (.evaluate (Paste.script path content)))
    intro r _
    cases r with
    | ok value => exact .pure trivial
    | error fault => cases fault <;> exact .pure nofun
  unfold Perform.paste
  apply Work.Spans.stillThen
  case hx =>
    apply Work.Spans.ofWorld
    intro w c s _
    refine .inr ?_
    cases hbytes : s.desk.disk.readBytes path with
    | ok content =>
      exact ⟨.ok content, (c, s), by simp [Timed.bind_apply, hbytes], Nat.le_refl _, trivial⟩
    | error fault =>
      exact ⟨.error (.resource path fault.message), (c, s), by simp [Timed.bind_apply, hbytes],
        Nat.le_refl _, nofun⟩
  case hf =>
    intro content
    apply (spans_find instant candidates (.perform .focus) timeout).thenStill
    intro located
    apply (hpaste content).stillThen
    intro _
    exact spans_found _ _

theorem spans_extract (candidates : List String) (saveAs : String) (timeout : Nat) :
    Work.Spans timeout (Perform.extract stage place candidates saveAs timeout) := by
  unfold Perform.extract
  apply (spans_find instant candidates (.perform .readText) timeout).thenStill
  intro located
  apply (spans_note _).stillThen
  intro _
  apply (Work.Spans.lift (AtOnce.onFirst (.modify _))).stillThen
  intro _
  exact spans_setSelector _

/-- A step that searches for an element takes no longer than the search. -/
theorem spans_deed {runner : Runner σ} {stack : CallStack} {stem : String} (timeout : Nat) {deed : Deed}
    (searches : deed.searches = true) :
    Work.Spans timeout (Perform.deed stage runner place stack stem timeout deed) := by
  cases deed with
  | element candidates operation => exact spans_sought instant candidates _ timeout _
  | waitVisible candidates => exact spans_sought instant candidates _ timeout _
  | assertText candidates expected => exact spans_sought instant candidates _ timeout _
  | extract candidates saveAs => exact spans_extract instant candidates saveAs timeout
  | upload candidates path =>
    have hrequire : Work.Spans 0 (Perform.requireFile path : Work σ Unit) := by
      apply Work.Spans.ofWorld
      intro w c s _
      refine .inr ⟨if s.desk.disk.has path then .ok () else .error (.resource path "文件不存在"), (c, s), rfl,
        Nat.le_refl _, ?_⟩
      split
      · trivial
      · exact nofun
    apply hrequire.stillThen
    intro _
    exact spans_sought instant candidates _ timeout _
  | pasteImage candidates path => exact spans_paste instant candidates path timeout
  | _ => cases searches

end

/-! ### The time limit of a step -/

theorem Task.reference?_eq_none {task : Task} (plain : task.keepsOwnTime = false) :
    task.deed.reference? = none := by
  obtain ⟨action, timeout, deed, names⟩ := task
  cases deed <;> first | rfl | cases plain

namespace Play

variable {stage : Stage σ} {runner : Runner σ} {place : Place} {stack : CallStack}

/-- How the dispatch of a step ended whose task is under a time limit. The run was cancelled, or the work
came to its result, or it was given up at the limit. It was begun at the moment of the dispatch. -/
inductive Dispatched (task : Task) (work : Timed (World σ × Trace) (Except Failure Unit)) (w : Watch)
    (x y : Clock × World σ × Trace) : Exit (Except Failure Unit) → Prop
  | cancelled (outer : w.cancellable = true) (stopped : y.1.isCancelled = true) :
    Dispatched task work w x y .cancelled
  | halted (stopped : y.1.isCancelled = true) : Dispatched task work w x y (.done (.error .cancelled))
  | finished {z : World σ × Trace} {r : Except Failure Unit}
    (worked : work ⟨true, some (x.1.now + (task.timeout + grace))⟩ x.1 z = (.done r, y)) :
    Dispatched task work w x y (.done r)
  | givenUp {z : World σ × Trace}
    (worked : work ⟨true, some (x.1.now + (task.timeout + grace))⟩ x.1 z = (.expired, y)) :
    Dispatched task work w x y (.done (.error (.timeout task.action.word task.timeout)))

theorem guarded_eq {task : Task} (plain : task.keepsOwnTime = false)
    (work : Timed (World σ × Trace) (Except Failure Unit)) {w : Watch} (free : w.deadline = none)
    (c : Clock) (x : World σ × Trace) :
    guarded task work w c x =
      match work { w with deadline := some (c.now + (task.timeout + grace)) } c x with
      | (.done r, y) => (.done r, y)
      | (.cancelled, y) => (.cancelled, y)
      | (.expired, y) => (.done (.error (.timeout task.action.word task.timeout)), y) := by
  unfold guarded
  rw [if_neg (by simp [plain]), Timed.bind_apply]
  simp only [Timed.within, free, Timed.earlier]
  generalize work { w with deadline := some (c.now + (task.timeout + grace)) } c x = res
  obtain ⟨r | _ | _, y⟩ := res <;> rfl

/-- A deed that has no scenario played is over or given up by its deadline. -/
theorem meets_deed {stem : String} (hstem : IsStem stem) {deed : Deed} (plain : deed.reference? = none)
    (timeout : Nat) {w : Watch} {c : Clock} {x : World σ × Trace} {e : Exit (Except Failure Unit)}
    {y : Clock × World σ × Trace}
    (h : (Perform.deed stage runner place stack stem timeout deed).run w c x = (e, y)) :
    w.Meets c y.1 := by
  have halike : Work.Alike (Likeness.equal stage x.1.desk) Eq
      (Perform.deed stage runner place stack stem timeout deed)
      (Perform.deed stage runner place stack stem timeout deed) :=
    Perform.alike_deed (stage.admits_equal _) .rfl (fun id hid => by rw [plain] at hid; cases hid)
      (fun path _ s t hst => by rw [hst.1]; exact ⟨rfl, rfl⟩) timeout
      fun _ => (stage.shows_equal _).shot .rfl hstem hstem .rfl _ _ _ _ _
  obtain ⟨s, u⟩ := x
  have hbeside := halike w w (.refl w) c (s, u) (s, u) ⟨⟨rfl, .refl⟩, .refl u⟩
  rw [h] at hbeside
  exact hbeside.meets

/-- The dispatch of a step under a time limit ends at the limit at the latest. -/
theorem dispatched_of_task (number : Nat) {step : Step} {task : Task} {w : Watch}
    {x : Clock × World σ × Trace} (made : stage.task x.2.1.desk x.2.1.scope step = .ok task)
    (plain : task.keepsOwnTime = false) (free : w.deadline = none) :
    ∃ e y, attempt stage runner place stack (stem number step.action) step w x.1 x.2 = (e, y) ∧
      y.1.now ≤ x.1.now + (task.timeout + grace) ∧
      Dispatched task (Perform.deed stage runner place stack (stem number step.action) task.timeout
        task.deed).run w x y e := by
  obtain ⟨c, s, t⟩ := x
  have hnone := Task.reference?_eq_none plain
  have hmaintains : Maintains (fun _ => True) (Answers Whatever fun _ => True)
      (Perform.deed stage runner place stack (stem number step.action) task.timeout task.deed).run :=
    Perform.maintains_deed stage.lasting_true.toStable stage.tolerates_true
      (fun id hid => by rw [hnone] at hid; cases hid) _ _
  have hmeets : ∀ {v : Watch} {z : World σ × Trace} {e y},
      (Perform.deed stage runner place stack (stem number step.action) task.timeout task.deed).run v c z =
        (e, y) → v.Meets c y.1 :=
    meets_deed ⟨_, _, rfl⟩ hnone task.timeout
  generalize hwork : (Perform.deed stage runner place stack (stem number step.action) task.timeout
    task.deed).run = work at hmaintains hmeets ⊢
  have hwarnings : AtOnce Whatever (forIn task.unset PUnit.unit fun name _ => do
      Timed.onFirst (Timed.say [.warn ("⚠️ 变量 " ++ name ++ " 未定义，按原文保留")])
      stage.note place ("⚠️ 变量 \x7b\x7b" ++ name ++ "\x7d\x7d 未定义，按原文保留")
      pure (ForInStep.yield PUnit.unit) : Timed (World σ × Trace) PUnit) := by
    apply AtOnce.forIn
    intro name _
    apply AtOnce.bind (P := Whatever) (AtOnce.onFirst (.modify _))
    intro _ _
    exact AtOnce.bind (atOnce_note _ _) fun _ _ => .pure trivial
  obtain ⟨u, z, hwarned, -⟩ := hwarnings c (s.say (stage.referenceLines s.scope step.instruction), t)
  unfold attempt
  rw [Timed.bind_of_done (Timed.onFirst_of_done (Timed.desk_apply ..) t),
    Timed.bind_of_done (Timed.onFirst_of_done (Timed.scope_apply ..) t),
    Timed.bind_of_done (Timed.onFirst_of_done (Timed.say_apply ..) t)]
  simp only [made]
  rw [Timed.bind_of_done (hwarned w), hwork, Timed.bind_apply, Timed.untilCancelled]
  by_cases hstopped : c.isCancelled = true
  · rw [if_pos hstopped]
    exact ⟨_, _, rfl, Nat.le_add_right _ _, .halted hstopped⟩
  have hguarded := guarded_eq plain work (w := ⟨true, w.deadline⟩) free c z
  rw [if_neg hstopped, hguarded]
  generalize hres : work ⟨true, some (c.now + (task.timeout + grace))⟩ c z = res
  obtain ⟨e, y⟩ := res
  have hlimit : y.1.now ≤ c.now + (task.timeout + grace) := by
    have hle := hmeets hres _ rfl
    omega
  have hends := hmaintains ⟨true, some (c.now + (task.timeout + grace))⟩ c z trivial
  rw [hres] at hends
  cases e with
  | done r => exact ⟨_, y, rfl, hlimit, .finished hres⟩
  | expired => exact ⟨_, y, rfl, hlimit, .givenUp hres⟩
  | cancelled =>
    simp only
    by_cases houter : w.cancellable = true
    · rw [if_pos houter]
      exact ⟨_, y, rfl, hlimit, .cancelled houter hends.2.2.2⟩
    · rw [if_neg houter]
      exact ⟨_, y, rfl, hlimit, .halted hends.2.2.2⟩

/-- With calls that take no time a search is over before the limit of its step. -/
theorem Dispatched.untimed (instant : stage.browser.Instant) {stem : String} {task : Task}
    (searches : task.deed.searches = true) {w : Watch} {x y : Clock × World σ × Trace}
    {e : Exit (Except Failure Unit)}
    (h : Dispatched task (Perform.deed stage runner place stack stem task.timeout task.deed).run w x y e) :
    ∀ action millis, e ≠ .done (.error (.timeout action millis)) := by
  have hspans : Work.Spans task.timeout
      (Perform.deed stage runner place stack stem task.timeout task.deed) :=
    spans_deed instant task.timeout searches
  have hwork : ∀ z, _ := fun z =>
    hspans ⟨true, some (x.1.now + (task.timeout + grace))⟩ x.1 z (by rintro d ⟨⟩; omega)
  rintro action millis rfl
  cases h with
  | @finished z r worked =>
    obtain ⟨y', hcancelled⟩ | ⟨a, y', hdone, -, ha⟩ := hwork z
    · cases hcancelled.symm.trans worked
    · cases hdone.symm.trans worked
      exact ha action millis rfl
  | @givenUp z worked =>
    obtain ⟨y', hcancelled⟩ | ⟨a, y', hdone, -⟩ := hwork z
    · cases hcancelled.symm.trans worked
    · cases hdone.symm.trans worked

end Play

open Play (attempt grace)

/-- With calls that take no time, the rounds of a search are made at even intervals and at the deadline,
it is lost at the deadline and otherwise over at the first of these moments at which a candidate does
what is wanted, and no step that searches fails at its time limit. With calls that take any time, a step
under a time limit is over when that is. -/
theorem element_steps_on_time :
    (∀ (b : Browser σ), b.Instant → ∀ (candidates : List String) (wanted : Wanted) (timeout : Nat)
      (w : Watch) (x : Clock × World σ), (∀ d, w.deadline = some d → x.1.now + timeout ≤ d) →
      (∃ y, locate b candidates wanted timeout w x.1 x.2 = (.cancelled, y) ∧ w.cancellable = true) ∨
        ∃ r y rounds moves, locate b candidates wanted timeout w x.1 x.2 = (.done r, y) ∧
          Locate.Searched b w wanted candidates (x.1.now + timeout) rounds moves x y r ∧
          Locate.Paced wanted candidates timeout x.1.now y.1.now rounds r) ∧
    ∀ (stage : Stage σ) (runner : Runner σ) (place : Place) (stack : CallStack) (number : Nat)
      (step : Step) (task : Task) (w : Watch) (x : Clock × World σ × Trace),
      stage.task x.2.1.desk x.2.1.scope step = .ok task → task.keepsOwnTime = false →
      w.deadline = none →
      ∃ e y, attempt stage runner place stack (Play.stem number step.action) step w x.1 x.2 = (e, y) ∧
        y.1.now ≤ x.1.now + (task.timeout + grace) ∧
        Play.Dispatched task
          (Perform.deed stage runner place stack (Play.stem number step.action) task.timeout
            task.deed).run w x y e ∧
        (stage.browser.Instant → task.deed.searches = true →
          ∀ action millis, e ≠ .done (.error (.timeout action millis))) := by
  constructor
  · intro b instant candidates wanted timeout w x far
    obtain ⟨y, hcancelled⟩ | ⟨r, y, hdone, -⟩ :=
      Locate.spans_locate instant candidates wanted timeout w x.1 x.2 far
    · have keeps : b.Keeps fun _ => True := Undisturbed.keeps ⟨fun _ _ => trivial, fun _ _ => trivial⟩ b
      have hends := maintains_locate keeps (fun _ _ => trivial) candidates wanted timeout w x.1 x.2 trivial
      rw [hcancelled] at hends
      exact .inl ⟨y, hcancelled, hends.2.2.1⟩
    · obtain ⟨⟨rounds, moves, searched⟩, -⟩ := Locate.locate_tries_in_order hdone
      exact .inr ⟨r, y, rounds, moves, hdone, searched, searched.paced instant⟩
  · intro stage runner place stack number step task w x made plain free
    obtain ⟨e, y, hattempt, hlimit, hdispatched⟩ := Play.dispatched_of_task number made plain free
    exact ⟨e, y, hattempt, hlimit, hdispatched, fun instant searches => hdispatched.untimed instant searches⟩

open Preflight (nowhere)

theorem Browser.instant_still : Browser.still.Instant := by
  intro α asking call serves w c s
  cases serves <;> exact ⟨_, _, rfl, rfl⟩

/-- Waits a quarter of a second for an element. -/
def Step.waiting : Step := ⟨none, .waitFor "#a", ⟨false, false, some 250⟩⟩

/-- The element never appears. -/
theorem element_steps_on_time_still :
    (∃ r y rounds moves,
      locate .still ["#a"] .visible 250 .none .start (.ofPage () nowhere) = (.done r, y) ∧
      Locate.Searched .still .none .visible ["#a"] 250 rounds moves (.start, .ofPage () nowhere) y r ∧
      Locate.Paced .visible ["#a"] 250 0 y.1.now rounds r) ∧
    ∃ e y, attempt (.bare []) (Play.nested (.bare []) 0) ⟨"r", 0, 0⟩ (.root "r")
        (Play.stem 1 Step.waiting.action) .waiting .none .start (.ofPage () nowhere, .empty) = (e, y) ∧
      y.1.now ≤ 350 ∧ ∀ action millis, e ≠ .done (.error (.timeout action millis)) := by
  obtain ⟨hlocate, hattempt⟩ := element_steps_on_time (σ := Unit)
  constructor
  · obtain ⟨y, -, houter⟩ | hdone := hlocate .still Browser.instant_still ["#a"] .visible 250 .none
      (.start, .ofPage () nowhere) (by rintro d ⟨⟩)
    · cases houter
    · exact hdone
  · obtain ⟨e, y, hdone, hlimit, -, huntimed⟩ := hattempt (.bare []) (Play.nested (.bare []) 0) ⟨"r", 0, 0⟩
      (.root "r") 1 .waiting ⟨.waitFor, 250, .waitVisible ["#a"], []⟩ .none
      (.start, .ofPage () nowhere, .empty) (by decide +kernel) rfl rfl
    exact ⟨e, y, hdone, hlimit, huntimed Browser.instant_still rfl⟩

end Rehearsal
