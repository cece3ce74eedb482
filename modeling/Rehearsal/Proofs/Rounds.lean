import Rehearsal.Proofs.Inversion

/-! # The rounds of a search

What a search for an element did, taken apart when it is over: the calls of the browser and the rests
that lead from its beginning to its end, and nothing besides them. The candidates are tried round by
round and in their order, and the first try that does what is wanted is the last thing that happens.
-/
namespace Rehearsal

open Timed (Maintains Whatever)

variable {σ : Type}

/-- A browser in which one selector matches, and what it matches can be used. -/
def Browser.showing (shown : String) : Browser Unit :=
  { Browser.still with
    probe := fun selector => .done (.ok (if selector = shown then .visible else .missing))
    perform := fun _ _ => .done (.ok none) }

namespace Locate

/-- What a search does: it calls the browser, and rests between its rounds. -/
inductive Move where
  | probed (selector : String) (answer : Answer Presence)
  | performed (selector : String) (operation : Operation) (answer : Answer (Option String))
  | rested (millis : Nat)

namespace Move

/-- The move leads from one moment to another. -/
def Leads (b : Browser σ) (w : Watch) (x y : Clock × World σ) : Move → Prop
  | probed selector answer => (b.probe selector).run w x.1 x.2 = (.done answer, y)
  | performed selector operation answer =>
    (b.perform selector operation).run w x.1 x.2 = (.done answer, y)
  | rested millis => Timed.pause millis w x.1 x.2 = (.done (), y)

/-- An operation that was made without a fault. -/
def Succeeds : Move → Prop
  | performed _ _ (.ok _) => True
  | _ => False

end Move

/-- One move after the other leads from one moment to another, and nothing comes in between. -/
inductive Path (b : Browser σ) (w : Watch) : List Move → Clock × World σ → Clock × World σ → Prop
  | nil {x : Clock × World σ} : Path b w [] x x
  | cons {m : Move} {ms : List Move} {x y z : Clock × World σ} (first : m.Leads b w x y)
    (rest : Path b w ms y z) : Path b w (m :: ms) x z

/-- A try at a candidate. Either the probe alone settles it, or an operation is made after it. -/
inductive Try where
  | probed (selector : String) (answer : Answer Presence)
  | performed (selector : String) (found : Presence) (operation : Operation)
    (answer : Answer (Option String))

namespace Try

def selector : Try → String
  | probed selector _ => selector
  | performed selector _ _ _ => selector

def moves : Try → List Move
  | probed selector answer => [.probed selector answer]
  | performed selector found operation answer =>
    [.probed selector (.ok found), .performed selector operation answer]

/-- The calls that a try is made of, by what is wanted and by what the probe has found. -/
inductive Fits : Wanted → Try → Prop
  | faulty {wanted : Wanted} {selector : String} {fault : BrowserFault} :
    Fits wanted (probed selector (.error fault))
  | missing {wanted : Wanted} {selector : String} : Fits wanted (probed selector (.ok .missing))
  | looked {selector : String} {found : Presence} : Fits .visible (probed selector (.ok found))
  | hidden {selector : String} {operation : Operation} (shown : operation.needsVisible = true) :
    Fits (.perform operation) (probed selector (.ok .hidden))
  | performed {selector : String} {found : Presence} {operation : Operation}
    {answer : Answer (Option String)} (there : found ≠ .missing)
    (shown : found = .hidden → operation.needsVisible = false) :
    Fits (.perform operation) (performed selector found operation answer)
  | read {selector expected : String} {found : Presence} {answer : Answer (Option String)}
    (there : found ≠ .missing) :
    Fits (.textContains expected) (performed selector found .readText answer)

/-- What comes of the answers. -/
def result (wanted : Wanted) : Try → Attempt
  | probed _ (.error fault) => .notReady fault.message
  | probed _ (.ok .missing) => absent
  | probed _ (.ok .hidden) => unseen
  | probed _ (.ok .visible) => .done none
  | performed _ _ operation answer =>
    match wanted, answer with
    | .textContains expected, .ok output =>
      let text := output.getD ""
      if Text.contains text expected then .done (some text) else .otherText text
    | .textContains _, .error fault => .notReady fault.message
    | _, .ok output => .done output
    | _, .error fault => .notReady (operation.word ++ " 失败: " ++ fault.message)

def Succeeds (wanted : Wanted) (t : Try) : Prop := ∃ output, t.result wanted = .done output

/-- The candidate and its text, when the text is not the one that is wanted. -/
def other? (wanted : Wanted) (t : Try) : Option (String × String) :=
  match t.result wanted with
  | .otherText text => some (t.selector, text)
  | _ => none

/-- The candidate with the reason why it was not taken. -/
def line (wanted : Wanted) (t : Try) : String :=
  match t.result wanted with
  | .done _ => ""
  | .otherText _ => t.selector ++ ": 文本不匹配"
  | .notReady reason => t.selector ++ ": " ++ reason

end Try

/-- A round with the moments at which it began and ended. -/
structure Round where
  begun : Nat
  ended : Nat
  tries : List Try

namespace Round

/-- Every candidate was tried, in their order, and none was taken. -/
structure Fails (wanted : Wanted) (candidates : List String) (r : Round) : Prop where
  order : r.tries.map Try.selector = candidates
  failed : ∀ t ∈ r.tries, ¬ t.Succeeds wanted

/-- The candidates were tried in their order, up to the first that did what is wanted. -/
structure Finds (wanted : Wanted) (candidates : List String) (located : Located) (r : Round)
    (before : List Try) (t : Try) : Prop where
  cut : r.tries = before ++ [t]
  order : r.tries.map Try.selector <+: candidates
  failed : ∀ u ∈ before, ¬ u.Succeeds wanted
  selector : t.selector = located.selector
  result : t.result wanted = .done located.output

end Round

/-- The candidates whose text was another one, each time with the text. -/
def others (wanted : Wanted) (rounds : List Round) : List (String × String) :=
  (rounds.flatMap Round.tries).filterMap (·.other? wanted)

/-- The rounds of a search with the moves they are made of, from one moment to another. Between two
rounds there is a rest, which does not go on past the deadline. -/
inductive Search (b : Browser σ) (w : Watch) (deadline : Nat) :
    List Round → List Move → Clock × World σ → Clock × World σ → Prop
  | last {tries : List Try} {x y : Clock × World σ} (path : Path b w (tries.flatMap Try.moves) x y) :
    Search b w deadline [⟨x.1.now, y.1.now, tries⟩] (tries.flatMap Try.moves) x y
  | again {tries : List Try} {rounds : List Round} {moves : List Move} {x y z u : Clock × World σ}
    (path : Path b w (tries.flatMap Try.moves) x y) (early : y.1.now < deadline)
    (rest : (Move.rested (min interval (deadline - y.1.now))).Leads b w y z)
    (later : Search b w deadline rounds moves z u) :
    Search b w deadline (⟨x.1.now, y.1.now, tries⟩ :: rounds)
      (tries.flatMap Try.moves ++ .rested (min interval (deadline - y.1.now)) :: moves) x u

section

variable {b : Browser σ} {w : Watch} {wanted : Wanted} {candidates : List String} {deadline : Nat}
  {c c' : Clock} {s s' : World σ} {x y z : Clock × World σ}

theorem Path.append {ms ms' : List Move} (h : Path b w ms x y) (h' : Path b w ms' y z) :
    Path b w (ms ++ ms') x z := by
  induction h with
  | nil => exact h'
  | cons first _ ih => exact .cons first (ih h')

/-! ### What was tried -/

theorem tried_of_attempt {selector : String} {a : Attempt}
    (h : attempt b wanted selector w c s = (.done a, c', s')) :
    ∃ t : Try, t.selector = selector ∧ t.Fits wanted ∧ t.result wanted = a ∧
      Path b w t.moves (c, s) (c', s') := by
  obtain ⟨r, c₁, s₁, hprobe, h⟩ := Timed.done_of_bind h
  cases r with
  | error fault =>
    cases h
    exact ⟨.probed selector (.error fault), rfl, .faulty, rfl, .cons hprobe .nil⟩
  | ok found =>
    cases wanted with
    | visible =>
      cases found <;> (cases h; exact ⟨.probed selector (.ok _), rfl, .looked, rfl, .cons hprobe .nil⟩)
    | perform operation =>
      simp only at h
      by_cases hmissing : found = .missing
      · subst hmissing
        cases h
        exact ⟨.probed selector (.ok .missing), rfl, .missing, rfl, .cons hprobe .nil⟩
      rw [if_neg hmissing] at h
      by_cases hhidden : found = .hidden ∧ operation.needsVisible = true
      · rw [if_pos hhidden] at h
        obtain ⟨rfl, hshown⟩ := hhidden
        cases h
        exact ⟨.probed selector (.ok .hidden), rfl, .hidden hshown, rfl, .cons hprobe .nil⟩
      rw [if_neg hhidden] at h
      have hshown : found = .hidden → operation.needsVisible = false := by simpa using hhidden
      obtain ⟨r, c₂, s₂, hperform, h⟩ := Timed.done_of_bind h
      have hpath : Path b w [.probed selector (.ok found), .performed selector operation r] (c, s) (c₂, s₂) :=
        .cons hprobe (.cons hperform .nil)
      cases r <;> (cases h; exact ⟨.performed selector found operation _, rfl, .performed hmissing hshown,
        rfl, hpath⟩)
    | textContains expected =>
      simp only at h
      by_cases hmissing : found = .missing
      · subst hmissing
        cases h
        exact ⟨.probed selector (.ok .missing), rfl, .missing, rfl, .cons hprobe .nil⟩
      rw [if_neg hmissing] at h
      obtain ⟨r, c₂, s₂, hperform, h⟩ := Timed.done_of_bind h
      have hpath : Path b w [.probed selector (.ok found), .performed selector .readText r] (c, s) (c₂, s₂) :=
        .cons hprobe (.cons hperform .nil)
      cases r <;> (cases h; exact ⟨.performed selector found .readText _, rfl, .read hmissing, rfl, hpath⟩)

/-- What is known after further tries that have failed. -/
def Missed.after (wanted : Wanted) (missed : Missed) (tries : List Try) : Missed :=
  ⟨missed.reasons ++ tries.map (·.line wanted),
    (tries.filterMap (·.other? wanted)).getLast?.or missed.other⟩

theorem Missed.after_cons (missed : Missed) (t : Try) (tries : List Try) :
    missed.after wanted (t :: tries) =
      Missed.after wanted ⟨missed.reasons ++ [t.line wanted], (t.other? wanted).or missed.other⟩ tries := by
  have hother : ((t :: tries).filterMap (·.other? wanted)).getLast? =
      (tries.filterMap (·.other? wanted)).getLast?.or (t.other? wanted) := by
    rw [List.filterMap_cons]
    cases t.other? wanted with
    | none => simp
    | some other => rw [List.getLast?_cons]; cases (tries.filterMap (·.other? wanted)).getLast? <;> rfl
  rw [after, after, hother, Option.or_assoc, List.map_cons, List.append_assoc, List.singleton_append]

theorem tried_of_round {missed : Missed} {r : Missed ⊕ Located}
    (h : round b wanted missed candidates w c s = (.done r, c', s')) :
    ∃ tries : List Try, (∀ t ∈ tries, t.Fits wanted) ∧
      Path b w (tries.flatMap Try.moves) (c, s) (c', s') ∧
      (∀ later, r = .inl later →
        Round.Fails wanted candidates ⟨c.now, c'.now, tries⟩ ∧ later = missed.after wanted tries) ∧
      (∀ located, r = .inr located →
        ∃ before t, Round.Finds wanted candidates located ⟨c.now, c'.now, tries⟩ before t) := by
  induction candidates generalizing missed c s with
  | nil =>
    cases h
    refine ⟨[], by simp, .nil, ?_, by simp⟩
    rintro later ⟨⟩
    exact ⟨⟨rfl, by simp⟩, by simp [Missed.after]⟩
  | cons selector rest ih =>
    obtain ⟨a, c₁, s₁, hattempt, h⟩ := Timed.done_of_bind h
    obtain ⟨t, hselector, hfits, hresult, hpath⟩ := tried_of_attempt hattempt
    -- a try that fails is followed by the tries at the other candidates
    have onward : ¬ t.Succeeds wanted →
        round b wanted ⟨missed.reasons ++ [t.line wanted], (t.other? wanted).or missed.other⟩ rest
          w c₁ s₁ = (.done r, c', s') →
        ∃ tries : List Try, (∀ t ∈ tries, t.Fits wanted) ∧
          Path b w (tries.flatMap Try.moves) (c, s) (c', s') ∧
          (∀ later, r = .inl later → Round.Fails wanted (selector :: rest) ⟨c.now, c'.now, tries⟩ ∧
            later = missed.after wanted tries) ∧
          (∀ located, r = .inr located →
            ∃ before t, Round.Finds wanted (selector :: rest) located ⟨c.now, c'.now, tries⟩ before t) := by
      intro hfailed hround
      obtain ⟨tries, hall, hpaths, hmissed, hlocated⟩ := ih hround
      refine ⟨t :: tries, ?_, ?_, ?_, ?_⟩
      · exact List.forall_mem_cons.2 ⟨hfits, hall⟩
      · rw [List.flatMap_cons]
        exact hpath.append hpaths
      · intro later hlater
        obtain ⟨fails, hafter⟩ := hmissed later hlater
        refine ⟨⟨?_, List.forall_mem_cons.2 ⟨hfailed, fails.failed⟩⟩, ?_⟩
        · rw [List.map_cons, hselector, fails.order]
        · rw [hafter, Missed.after_cons]
      · intro located hfound
        obtain ⟨before, last, finds⟩ := hlocated located hfound
        refine ⟨t :: before, last, congrArg _ finds.cut, ?_, ?_, finds.selector, finds.result⟩
        · rw [List.map_cons, hselector]
          exact (List.prefix_cons_inj selector).2 finds.order
        · exact List.forall_mem_cons.2 ⟨hfailed, finds.failed⟩
    cases a with
    | done output =>
      cases h
      refine ⟨[t], by simpa using hfits, by simpa using hpath, by simp, ?_⟩
      rintro located ⟨⟩
      refine ⟨[], t, rfl, ?_, by simp, hselector, hresult⟩
      exact ⟨rest, by simp [hselector]⟩
    | otherText text =>
      refine onward (by simp [Try.Succeeds, hresult]) ?_
      simpa [Try.line, Try.other?, hresult, hselector] using h
    | notReady reason =>
      refine onward (by simp [Try.Succeeds, hresult]) ?_
      simpa [Try.line, Try.other?, hresult, hselector] using h

/-! ### The rounds -/

/-- What is known of the rounds when a search is over. The candidates with another text of earlier
rounds come before all of these. -/
structure Ended (wanted : Wanted) (candidates : List String) (deadline : Nat)
    (other : Option (String × String)) (earlier : List Round) (last : Round)
    (r : Except Failure Located) : Prop where
  fits : ∀ round ∈ earlier ++ [last], ∀ t ∈ round.tries, t.Fits wanted
  full : ∀ round ∈ earlier, round.Fails wanted candidates
  found : ∀ located, r = .ok located → ∃ before t, last.Finds wanted candidates located before t
  lost : ∀ e, r = .error e → last.Fails wanted candidates ∧ deadline ≤ last.ended ∧
    e = failure wanted candidates
      ⟨last.tries.map (·.line wanted), (others wanted (earlier ++ [last])).getLast?.or other⟩

theorem Ended.cons {round : Round} {earlier : List Round} {last : Round} {r : Except Failure Located}
    {other : Option (String × String)} (fits : ∀ t ∈ round.tries, t.Fits wanted)
    (fails : round.Fails wanted candidates)
    (h : Ended wanted candidates deadline ((others wanted [round]).getLast?.or other) earlier last r) :
    Ended wanted candidates deadline other (round :: earlier) last r := by
  constructor
  case fits => exact List.forall_mem_cons.2 ⟨fits, h.fits⟩
  case full => exact List.forall_mem_cons.2 ⟨fails, h.full⟩
  case found => exact h.found
  case lost =>
    intro e he
    obtain ⟨hfails, hlate, hfailure⟩ := h.lost e he
    have hothers : others wanted (round :: earlier ++ [last]) =
        others wanted [round] ++ others wanted (earlier ++ [last]) := by
      simp [others]
    refine ⟨hfails, hlate, ?_⟩
    rw [hfailure, hothers, List.getLast?_append, Option.or_assoc]

/-- Each round but the last is followed by a rest, so that the search is over before its fuel is. -/
theorem ended_of_rounds {fuel : Nat} {other : Option (String × String)} {r : Except Failure Located}
    (enough : (deadline - c.now + 99) / interval + 1 ≤ fuel)
    (h : rounds b wanted candidates deadline fuel other w c s = (.done r, c', s')) :
    ∃ earlier last moves, Search b w deadline (earlier ++ [last]) moves (c, s) (c', s') ∧
      Ended wanted candidates deadline other earlier last r := by
  induction fuel generalizing other c s with
  | zero => exact absurd enough (Nat.not_succ_le_zero _)
  | succ fuel ih =>
    obtain ⟨a, c₁, s₁, hround, h⟩ := Timed.done_of_bind h
    obtain ⟨tries, hfits, hpath, hmissed, hlocated⟩ := tried_of_round hround
    cases a with
    | inr located =>
      cases h
      refine ⟨[], ⟨c.now, c'.now, tries⟩, _, .last hpath, ?_⟩
      constructor
      case fits => simpa using hfits
      case full => simp
      case found =>
        rintro located ⟨⟩
        exact hlocated _ rfl
      case lost => simp
    | inl missed =>
      obtain ⟨hfails, hafter⟩ := hmissed missed rfl
      simp only at h
      rw [Timed.bind_of_done (Timed.now_apply ..)] at h
      by_cases hlate : deadline ≤ c₁.now
      · rw [if_pos hlate] at h
        cases h
        refine ⟨[], ⟨c.now, c'.now, tries⟩, _, .last hpath, ?_⟩
        constructor
        case fits => simpa using hfits
        case full => simp
        case found => simp
        case lost =>
          rintro e ⟨⟩
          refine ⟨hfails, hlate, ?_⟩
          rw [hafter]
          simp [Missed.after, others]
      · rw [if_neg hlate] at h
        obtain ⟨u, c₂, s₂, hpause, h⟩ := Timed.done_of_bind h
        have keeps : b.Keeps fun _ => True := Undisturbed.keeps ⟨fun _ _ => trivial, fun _ _ => trivial⟩ b
        have hlater := ((maintains_round keeps wanted _ candidates).before trivial hround).now
        have hslept := Timed.now_of_pause hpause
        have hrest : (deadline - c₂.now + 99) / interval + 1 ≤ fuel := by
          simp only [interval] at hslept enough ⊢
          omega
        obtain ⟨earlier, last, moves, hsearch, hended⟩ := ih hrest h
        refine ⟨⟨c.now, c₁.now, tries⟩ :: earlier, last, _,
          .again hpath (Nat.lt_of_not_le hlate) hpause hsearch, .cons hfits hfails ?_⟩
        rw [hafter] at hended
        simpa [Missed.after, others] using hended

/-- A search makes the moves of its last round at the end; before, it has rested and made those of the
earlier rounds. -/
theorem Search.moves_eq {earlier : List Round} {last : Round} {moves : List Move}
    (h : Search b w deadline (earlier ++ [last]) moves x y) :
    ∃ front, moves = front ++ last.tries.flatMap Try.moves ∧
      ∀ m ∈ front, (∃ millis, m = .rested millis) ∨
        ∃ round ∈ earlier, ∃ t ∈ round.tries, m ∈ t.moves := by
  induction earlier generalizing moves x with
  | nil =>
    cases h with
    | last path => exact ⟨[], rfl, by simp⟩
    | again path early rest later => cases later
  | cons round earlier ih =>
    rw [List.cons_append] at h
    generalize hrounds : earlier ++ [last] = rounds at h
    cases h with
    | last path => simp at hrounds
    | @again tries rounds moves x y z u path early rest later =>
      subst hrounds
      obtain ⟨front, hmoves, hfront⟩ := ih later
      refine ⟨tries.flatMap Try.moves ++ .rested (min interval (deadline - y.1.now)) :: front, ?_, ?_⟩
      · rw [hmoves]
        simp
      · intro m hm
        rw [List.mem_append, List.mem_cons] at hm
        obtain hm | rfl | hm := hm
        · obtain ⟨t, ht, hmove⟩ := List.mem_flatMap.1 hm
          exact .inr ⟨_, List.mem_cons_self, t, ht, hmove⟩
        · exact .inl ⟨_, rfl⟩
        · obtain hrested | ⟨round, hround, htry⟩ := hfront m hm
          · exact .inl hrested
          · exact .inr ⟨round, List.mem_cons_of_mem _ hround, htry⟩

/-- No operation is made but right after a probe of the same candidate, which was there and was shown
if the operation needs that. -/
def Probed (moves : List Move) : Prop :=
  ∀ before selector operation answer after,
    moves = before ++ .performed selector operation answer :: after →
    ∃ earlier found, before = earlier ++ [.probed selector (.ok found)] ∧ found ≠ .missing ∧
      (found = .hidden → operation.needsVisible = false)

theorem Probed.append {ms ms' : List Move} (h : Probed ms) (h' : Probed ms') : Probed (ms ++ ms') := by
  intro before selector operation answer after hsplit
  obtain ⟨more, hbefore, hms'⟩ | ⟨more, hms, hafter⟩ := List.append_eq_append_iff.1 hsplit
  · obtain ⟨earlier, found, hmore, hfound⟩ := h' more selector operation answer after hms'
    exact ⟨ms ++ earlier, found, by rw [hbefore, hmore, List.append_assoc], hfound⟩
  · cases more with
    | nil =>
      obtain ⟨earlier, found, hnil, -⟩ := h' [] selector operation answer after hafter.symm
      simp at hnil
    | cons m more =>
      obtain ⟨rfl, -⟩ := List.cons.inj hafter
      exact h before selector operation answer more hms

theorem probed_rested (millis : Nat) : Probed [.rested millis] := by
  intro before selector operation answer after hsplit
  cases before <;> simp at hsplit

theorem probed_tries {tries : List Try} (fits : ∀ t ∈ tries, t.Fits wanted) :
    Probed (tries.flatMap Try.moves) := by
  have halone : ∀ (selector : String) (answer : Answer Presence), Probed [.probed selector answer] := by
    intro selector answer before selector' operation answer' after hsplit
    cases before <;> simp at hsplit
  have hboth : ∀ (selector : String) (found : Presence) (operation : Operation)
      (answer : Answer (Option String)), found ≠ .missing →
      (found = .hidden → operation.needsVisible = false) →
      Probed [.probed selector (.ok found), .performed selector operation answer] := by
    intro selector found operation answer hthere hshown before selector' operation' answer' after hsplit
    match before with
    | [] => simp at hsplit
    | [m] =>
      simp only [List.cons_append, List.nil_append, List.cons.injEq, Move.performed.injEq] at hsplit
      obtain ⟨rfl, ⟨rfl, rfl, rfl⟩, rfl⟩ := hsplit
      exact ⟨[], found, rfl, hthere, hshown⟩
    | _ :: _ :: before => simp at hsplit
  induction tries with
  | nil =>
    intro before selector operation answer after hsplit
    simp at hsplit
  | cons t tries ih =>
    rw [List.flatMap_cons]
    apply Probed.append ?_ (ih fun u hu => fits u (List.mem_cons_of_mem _ hu))
    cases fits t List.mem_cons_self with
    | faulty => exact halone _ _
    | missing => exact halone _ _
    | looked => exact halone _ _
    | hidden shown => exact halone _ _
    | performed there shown => exact hboth _ _ _ _ there shown
    | read there => exact hboth _ _ _ _ there fun _ => rfl

theorem Search.probed {rounds : List Round} {moves : List Move}
    (h : Search b w deadline rounds moves x y)
    (fits : ∀ round ∈ rounds, ∀ t ∈ round.tries, t.Fits wanted) : Probed moves := by
  induction h with
  | last path => exact probed_tries (fits _ List.mem_cons_self)
  | again path early rest later ih =>
    have hlater := ih fun round hround => fits round (List.mem_cons_of_mem _ hround)
    exact (probed_tries (fits _ List.mem_cons_self)).append ((probed_rested _).append hlater)

/-- A try that failed at an operation has made none without a fault. -/
theorem Try.Fits.not_succeeds {t : Try} {operation : Operation} (h : t.Fits (.perform operation))
    (failed : ¬ t.Succeeds (.perform operation)) : ∀ m ∈ t.moves, ¬ m.Succeeds := by
  intro m hm hsucceeds
  cases h with
  | performed there shown =>
    obtain rfl | rfl := by simpa [moves] using hm
    · exact hsucceeds
    · rename_i answer
      cases answer with
      | error fault => exact hsucceeds
      | ok output => exact failed ⟨output, rfl⟩
  | _ =>
    obtain rfl : m = _ := by simpa [moves] using hm
    exact hsucceeds

/-- The operation that was wanted is the last move of the try that did it. -/
theorem Try.Fits.moves_of_result {t : Try} {operation : Operation} {output : Option String}
    (h : t.Fits (.perform operation)) (done : t.result (.perform operation) = .done output) :
    ∃ found, t.moves = [.probed t.selector (.ok found), .performed t.selector operation (.ok output)] := by
  cases h with
  | @performed selector found operation answer there shown =>
    cases answer with
    | error fault => cases done
    | ok given =>
      cases done
      exact ⟨found, rfl⟩
  | _ => cases done

end

/-! ### What a search comes to -/

/-- Why a search was lost. Of the candidates with another text the last one counts, in whatever round;
without one, every candidate has its reason of the last round. -/
inductive Lost (wanted : Wanted) (candidates : List String) (rounds : List Round) (last : Round) :
    Failure → Prop
  | otherText {selector expected text : String} (asked : wanted = .textContains expected)
    (latest : (others wanted rounds).getLast? = some (selector, text)) :
    Lost wanted candidates rounds last (.assertion selector expected text)
  | notFound (none : others wanted rounds = []) :
    Lost wanted candidates rounds last
      (.elementNotFound candidates (Text.joinWith "; " (last.tries.map (·.line wanted))))

/-- Some candidate has had a text without the part that is wanted. -/
def OtherTextRead (wanted : Wanted) (rounds : List Round) : Prop :=
  ∃ expected, wanted = .textContains expected ∧ ∃ round ∈ rounds, ∃ selector found output,
    .performed selector found .readText (.ok output) ∈ round.tries ∧
      Text.contains (output.getD "") expected = false

/-- A search for what is wanted has come from `x` to `y`, in these rounds and moves and with this
result. -/
structure Searched (b : Browser σ) (w : Watch) (wanted : Wanted) (candidates : List String)
    (deadline : Nat) (rounds : List Round) (moves : List Move) (x y : Clock × World σ)
    (r : Except Failure Located) : Prop where
  search : Search b w deadline rounds moves x y
  fits : ∀ round ∈ rounds, ∀ t ∈ round.tries, t.Fits wanted
  probed : Probed moves
  full : ∀ round ∈ rounds.dropLast, round.Fails wanted candidates
  found : ∀ located, r = .ok located → ∃ last before t front, rounds.getLast? = some last ∧
    last.Finds wanted candidates located before t ∧ moves = front ++ t.moves
  once : ∀ operation located, wanted = .perform operation → r = .ok located → ∃ front,
    moves = front ++ [.performed located.selector operation (.ok located.output)] ∧
      ∀ m ∈ front, ¬ m.Succeeds
  never : ∀ operation e, wanted = .perform operation → r = .error e → ∀ m ∈ moves, ¬ m.Succeeds
  lost : ∀ e, r = .error e → ∃ last, rounds.getLast? = some last ∧ last.Fails wanted candidates ∧
    deadline ≤ last.ended ∧ Lost wanted candidates rounds last e
  otherText : ∀ e, r = .error e →
    ((∃ selector expected text, e = .assertion selector expected text) ↔ OtherTextRead wanted rounds)

section

variable {b : Browser σ} {w : Watch} {wanted : Wanted} {candidates : List String} {deadline : Nat}
  {x y : Clock × World σ} {rounds : List Round}

theorem mem_others {selector text : String} : (selector, text) ∈ others wanted rounds ↔
    ∃ round ∈ rounds, ∃ t ∈ round.tries, t.selector = selector ∧ t.result wanted = .otherText text := by
  have hother : ∀ t : Try, t.other? wanted = some (selector, text) ↔
      t.selector = selector ∧ t.result wanted = .otherText text := by
    intro t
    unfold Try.other?
    cases t.result wanted <;> simp
  simp only [others, List.mem_filterMap, List.mem_flatMap, hother]
  constructor
  · rintro ⟨t, ⟨round, hround, ht⟩, h⟩
    exact ⟨round, hround, t, ht, h⟩
  · rintro ⟨round, hround, t, ht, h⟩
    exact ⟨t, ⟨round, hround, ht⟩, h⟩

theorem otherTextRead_iff (fits : ∀ round ∈ rounds, ∀ t ∈ round.tries, t.Fits wanted) :
    OtherTextRead wanted rounds ↔ others wanted rounds ≠ [] := by
  constructor
  · rintro ⟨expected, rfl, round, hround, selector, found, output, ht, htext⟩
    have hmem : (selector, output.getD "") ∈ others (.textContains expected) rounds :=
      mem_others.2 ⟨round, hround, _, ht, rfl, by simp [Try.result, htext]⟩
    exact List.ne_nil_of_mem hmem
  · intro hsome
    obtain ⟨⟨selector, text⟩, hmem⟩ := List.exists_mem_of_ne_nil _ hsome
    obtain ⟨round, hround, t, ht, -, hresult⟩ := mem_others.1 hmem
    cases fits round hround t ht with
    | faulty => cases hresult
    | missing => cases hresult
    | @looked selector found => cases found <;> cases hresult
    | hidden shown => cases hresult
    | @performed selector found operation answer there shown => cases answer <;> cases hresult
    | @read selector expected found answer there =>
      cases answer with
      | error fault => cases hresult
      | ok output =>
        refine ⟨expected, rfl, round, hround, selector, found, output, ht, ?_⟩
        by_contra htext
        rw [Bool.not_eq_false] at htext
        simp [Try.result, htext] at hresult

theorem lost_of_failure {last : Round} (fits : ∀ round ∈ rounds, ∀ t ∈ round.tries, t.Fits wanted) :
    Lost wanted candidates rounds last (failure wanted candidates
      ⟨last.tries.map (·.line wanted), (others wanted rounds).getLast?⟩) := by
  by_cases hnone : others wanted rounds = []
  · have hfailure : failure wanted candidates
        ⟨last.tries.map (·.line wanted), (others wanted rounds).getLast?⟩ =
          .elementNotFound candidates (Text.joinWith "; " (last.tries.map (·.line wanted))) := by
      rw [hnone]
      cases wanted <;> rfl
    rw [hfailure]
    exact .notFound hnone
  · obtain ⟨expected, rfl, -⟩ := (otherTextRead_iff fits).2 hnone
    obtain ⟨⟨selector, text⟩, hlast⟩ :=
      Option.ne_none_iff_exists'.1 (mt List.getLast?_eq_none_iff.1 hnone)
    rw [hlast]
    exact .otherText rfl hlast

/-- Candidates are tried in their order, round by round, and the first that does what is wanted is
taken with the last call of the browser. Without one the search ends after a full round, when the
deadline has come. The candidates of an element in a map are its selectors in the order declared. -/
theorem locate_tries_in_order {timeout : Nat} {r : Except Failure Located}
    (h : locate b candidates wanted timeout w x.1 x.2 = (.done r, y)) :
    (∃ rounds moves,
      Searched b w wanted candidates (x.1.now + timeout) rounds moves x y r) ∧
    ∀ (s : Selectors) (target : String) (l : Locator),
      s.referenced? target = some l ∨ (s.referenced? target = none ∧ s.inDefault? target = some l) →
      s.resolve target = l.primary :: l.fallbacks := by
  constructor
  · unfold locate at h
    rw [Timed.bind_of_done (Timed.now_apply ..)] at h
    have henough : (x.1.now + timeout - x.1.now + 99) / interval + 1 ≤ timeout / interval + 2 := by
      simp only [interval]
      omega
    obtain ⟨earlier, last, moves, hsearch, hended⟩ := ended_of_rounds henough h
    obtain ⟨front, hmoves, hfront⟩ := hsearch.moves_eq
    have hquiet : ∀ operation, wanted = .perform operation → ∀ m ∈ front, ¬ m.Succeeds := by
      rintro operation rfl m hm
      obtain ⟨millis, rfl⟩ | ⟨round, hround, t, ht, hmove⟩ := hfront m hm
      · exact id
      · have hfits := hended.fits round (List.mem_append_left _ hround) t ht
        exact hfits.not_succeeds ((hended.full round hround).failed t ht) m hmove
    have hlast : ∀ t ∈ last.tries, t.Fits wanted := hended.fits last (by simp)
    refine ⟨earlier ++ [last], moves, ?_⟩
    constructor
    case search => exact hsearch
    case fits => exact hended.fits
    case probed => exact hsearch.probed hended.fits
    case full => simpa using hended.full
    case found =>
      intro located hr
      obtain ⟨before, t, finds⟩ := hended.found located hr
      refine ⟨last, before, t, front ++ before.flatMap Try.moves, by simp, finds, ?_⟩
      rw [hmoves, finds.cut]
      simp
    case once =>
      rintro operation located rfl hr
      obtain ⟨before, t, finds⟩ := hended.found located hr
      have hfits : t.Fits (.perform operation) := hlast t (by simp [finds.cut])
      obtain ⟨found, htry⟩ := hfits.moves_of_result finds.result
      refine ⟨front ++ before.flatMap Try.moves ++ [.probed t.selector (.ok found)], ?_, ?_⟩
      · rw [hmoves, finds.cut, ← finds.selector]
        simp [htry]
      · intro m hm
        simp only [List.mem_append, List.mem_singleton, List.mem_flatMap] at hm
        obtain (hm | ⟨u, hu, hmove⟩) | rfl := hm
        · exact hquiet operation rfl m hm
        · have hfit := hlast u (by simp [finds.cut, hu])
          exact hfit.not_succeeds (finds.failed u hu) m hmove
        · exact id
    case never =>
      rintro operation e rfl hr m hm
      obtain ⟨hfails, -⟩ := hended.lost e hr
      rw [hmoves, List.mem_append, List.mem_flatMap] at hm
      obtain hm | ⟨t, ht, hmove⟩ := hm
      · exact hquiet operation rfl m hm
      · exact (hlast t ht).not_succeeds (hfails.failed t ht) m hmove
    case lost =>
      intro e hr
      obtain ⟨hfails, hlate, hfailure⟩ := hended.lost e hr
      refine ⟨last, by simp, hfails, hlate, ?_⟩
      rw [hfailure, Option.or_none]
      exact lost_of_failure hended.fits
    case otherText =>
      intro e hr
      obtain ⟨-, -, hfailure⟩ := hended.lost e hr
      have hlost : Lost wanted candidates (earlier ++ [last]) last e := by
        rw [hfailure, Option.or_none]
        exact lost_of_failure hended.fits
      rw [otherTextRead_iff hended.fits]
      cases hlost with
      | otherText asked latest =>
        constructor
        · intro _ hnil
          simp [hnil] at latest
        · exact fun _ => ⟨_, _, _, rfl⟩
      | notFound hnil => simp [hnil]
  · rintro s target l (hreferenced | ⟨hnone, hdefault⟩)
    · rw [Selectors.resolve, hreferenced]
      rfl
    · rw [Selectors.resolve, hnone, hdefault]
      rfl

end

open Preflight (nowhere)

/-- Of two candidates the second is there, and is clicked. -/
theorem locate_tries_in_order_shown :
    ∃ rounds moves, Searched (.showing "#b") .none (.perform .click) ["#a", "#b"] 0 rounds moves
      (.start, .ofPage () nowhere) (.start, .ofPage () nowhere) (.ok ⟨"#b", none⟩) := by
  have h : locate (.showing "#b") ["#a", "#b"] (.perform .click) 0 .none .start (.ofPage () nowhere) =
      (.done (.ok ⟨"#b", none⟩), .start, .ofPage () nowhere) := rfl
  exact (locate_tries_in_order (x := (.start, .ofPage () nowhere)) h).1

end Locate

end Rehearsal
