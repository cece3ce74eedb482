import Mathlib.Data.Finset.Card
import Rehearsal.Proofs.Inversion
import Rehearsal.Proofs.LikePlay
import Rehearsal.Proofs.RequestedGraph

/-! # How deep scenarios play one another

No scenario is played inside itself: who is asked for one looks for it on the stack first, and puts it
there under the identifier that it was asked for. As long as there are only so many scenarios to be
found, the playing comes to its end by that alone, whatever the scenarios call themselves.
-/
namespace Rehearsal

open Timed (Follows Never)

variable {σ : Type} {stage : Stage σ} {d : Desk} {ids : List String}

/-- At no desk that a run from `d` on comes to are there scenarios under other identifiers. -/
def Stage.FindsOnly (stage : Stage σ) (d : Desk) (ids : List String) : Prop :=
  ∀ d', stage.Reaches d d' → ∀ id scenario,
    (stage.scenarios.load d' id).1 = .ok (some scenario) → id ∈ ids

/-- Nor are there scenarios with more steps. -/
def Stage.FindsShort (stage : Stage σ) (d : Desk) (longest : Nat) : Prop :=
  ∀ d', stage.Reaches d d' → ∀ id scenario,
    (stage.scenarios.load d' id).1 = .ok (some scenario) → scenario.steps.length ≤ longest

namespace CallStack

variable {stack : CallStack} {id : String}

/-- How many of the scenarios are not being played. -/
def room (stack : CallStack) (ids : List String) : Nat := (ids.toFinset.filter (· ∉ stack.ids)).card

theorem room_le (stack : CallStack) (ids : List String) : stack.room ids ≤ ids.length :=
  (Finset.card_filter_le ..).trans (List.toFinset_card_le ids)

theorem not_mem_of_contains (off : stack.contains id = false) : id ∉ stack.ids := by
  intro hmem
  rw [contains, List.contains_iff_mem.mpr hmem] at off
  cases off

theorem room_push (hid : id ∈ ids) (off : stack.contains id = false) :
    (stack.push id).room ids + 1 = stack.room ids := by
  have hoff := not_mem_of_contains off
  have herase : ids.toFinset.filter (· ∉ (stack.push id).ids) =
      (ids.toFinset.filter (· ∉ stack.ids)).erase id := by
    ext other
    simp only [push, Finset.mem_filter, Finset.mem_erase, List.mem_append, List.mem_singleton, not_or]
    tauto
  have hmem : id ∈ ids.toFinset.filter (· ∉ stack.ids) :=
    Finset.mem_filter.mpr ⟨List.mem_toFinset.mpr hid, hoff⟩
  rw [room, herase, Finset.card_erase_add_one hmem]
  rfl

theorem nodup_push (distinct : stack.ids.Nodup) (off : stack.contains id = false) :
    (stack.push id).ids.Nodup :=
  distinct.append (List.nodup_singleton id) (List.disjoint_singleton.mpr (not_mem_of_contains off))

/-- Scenarios that come on top of a stack without being on it find room there. -/
theorem length_le_room {more : List String} (distinct : (stack.ids ++ more).Nodup) (hmore : more ⊆ ids) :
    more.length ≤ stack.room ids := by
  obtain ⟨-, hnodup, hdisjoint⟩ := List.nodup_append'.mp distinct
  rw [← List.toFinset_card_of_nodup hnodup]
  refine Finset.card_le_card ?_
  intro id hid
  have hid := List.mem_toFinset.mp hid
  refine Finset.mem_filter.mpr ⟨List.mem_toFinset.mpr (hmore hid), fun hon => ?_⟩
  exact hdisjoint hon hid

end CallStack

namespace Play

/-- Each runner enters scenarios with the one before it, at least where the stack holds none twice. What
the first one does is left open, and what they all do elsewhere. -/
def Unrolls (stage : Stage σ) (r : Nat → Runner σ) : Prop :=
  ∀ n id stack depth, stack.ids.Nodup → r (n + 1) id stack depth = enter stage (r n) id stack depth

theorem unrolls_nested (stage : Stage σ) : Unrolls stage (nested stage) := fun _ _ _ _ _ => rfl

/-- Runners that go deeper than there is room go alike, however they were begun. -/
theorem follows_unrolled {k : Likeness σ} (admits : stage.Admits stage k)
    (finds : ∀ {s t id scenario}, k.world s t →
      (stage.scenarios.load s.desk id).1 = .ok (some scenario) →
      id ∈ ids ∧ ∀ step ∈ scenario.steps, k.fit step)
    {r r' : Nat → Runner σ} (hr : Unrolls stage r) (hr' : Unrolls stage r') {n n' : Nat} {id : String}
    {stack stack' : CallStack} {depth depth' : Nat} (hsub : stack'.ids ⊆ stack.ids)
    (hcircle : stack = stack' ∨ ∀ chain, k.bad (.cyclicReference chain))
    (h : k.Loosely (stack, depth) (stack', depth')) (distinct : stack.ids.Nodup)
    (distinct' : stack'.ids.Nodup) (hn : stack.room ids < n) (hn' : stack'.room ids < n') :
    k.Reports (r n id stack depth) (r' n' id stack' depth') := by
  induction n generalizing n' id stack stack' depth depth' with
  | zero => cases hn
  | succ n ih =>
    obtain _ | n' := n'
    · cases hn'
    rw [hr n id stack depth distinct, hr' n' id stack' depth' distinct']
    refine follows_enter admits hsub hcircle h ?_
    intro scenario s t hst off hload step hstep
    have off' : stack'.contains id = false := by
      refine Bool.eq_false_iff.mpr fun hon => ?_
      exact CallStack.not_mem_of_contains off (hsub (List.contains_iff_mem.mp hon))
    obtain ⟨hid, hfit⟩ := finds hst hload
    refine ⟨hfit step hstep, fun other _ => ?_⟩
    have hroom := CallStack.room_push hid off
    have hroom' := CallStack.room_push hid off'
    refine ih ?_ ?_ ?_ (CallStack.nodup_push distinct off) (CallStack.nodup_push distinct' off')
      (by omega) (by omega)
    · exact List.append_subset.mpr ⟨List.Subset.trans hsub (List.subset_append_left ..),
        List.subset_append_right ..⟩
    · exact hcircle.imp_left fun heq => congrArg (CallStack.push · id) heq
    · exact h.map fun a => (a.1.push id, a.2 + 1)

section

variable (finds : stage.FindsOnly d ids)

include finds

theorem follows_unrolled_equal {r r' : Nat → Runner σ} (hr : Unrolls stage r) (hr' : Unrolls stage r')
    {n n' : Nat} {stack : CallStack} (distinct : stack.ids.Nodup) (hn : ids.length < n)
    (hn' : ids.length < n') (id : String) (depth : Nat) :
    (Likeness.equal stage d).Reports (r n id stack depth) (r' n' id stack depth) := by
  have hroom : stack.room ids ≤ ids.length := stack.room_le ids
  refine follows_unrolled (stage.admits_equal d) ?_ hr hr' (List.Subset.refl _) (.inl rfl) .rfl distinct
    distinct (Nat.lt_of_le_of_lt hroom hn) (Nat.lt_of_le_of_lt hroom hn')
  rintro s t id scenario ⟨-, hreached⟩ hload
  exact ⟨finds _ hreached _ _ hload, fun _ _ => trivial⟩

theorem unrolled_eq {r r' : Nat → Runner σ} (hr : Unrolls stage r) (hr' : Unrolls stage r') {n n' : Nat}
    {stack : CallStack} (distinct : stack.ids.Nodup) (hn : ids.length < n) (hn' : ids.length < n')
    (id : String) (depth : Nat) (w : Watch) (c : Clock) {s : World σ} (hs : stage.Reaches d s.desk) :
    r n id stack depth w c s = r' n' id stack depth w c s := by
  have h := follows_unrolled_equal finds hr' hr distinct hn' hn id depth
  refine Follows.eq_of_same (I := fun s => stage.Reaches d s.desk) (h.mono ?_ ?_) w c hs
  · intro a b hab
    cases a with
    | ok report =>
      cases b with
      | ok report' => exact congrArg _ (Likeness.Report.eq hab)
      | error e => exact hab.elim
    | error e =>
      cases b with
      | ok report' => exact hab.elim
      | error e' => exact congrArg _ hab
  · intro a ha
    cases a with
    | ok report => exact ha.elim fun e he => he.2
    | error e => exact ha

theorem stepsFrom_unrolled_eq {r r' : Nat → Runner σ} (hr : Unrolls stage r) (hr' : Unrolls stage r')
    {n n' : Nat} {stack : CallStack} (distinct : stack.ids.Nodup) (hn : ids.length < n)
    (hn' : ids.length < n') (id : String) (depth index : Nat) (steps : List Step) (w : Watch) (c : Clock)
    {s : World σ} (hs : stage.Reaches d s.desk) :
    stepsFrom stage (r n) id stack depth index steps w c s =
      stepsFrom stage (r' n') id stack depth index steps w c s := by
  have h : Follows (Likeness.equal stage d).world ((Likeness.equal stage d).ReportFrom index index)
      (Likeness.equal stage d).BadReport (stepsFrom stage (r' n') id stack depth index steps)
      (stepsFrom stage (r n) id stack depth index steps) :=
    follows_stepsFrom (stage.admits_equal d) .rfl (fun _ _ => trivial)
      fun _ _ other _ => follows_unrolled_equal finds hr' hr distinct hn' hn other depth
  refine Follows.eq_of_same (I := fun s => stage.Reaches d s.desk) (h.mono ?_ ?_) w c hs
  · exact fun a b hab => hab.same.eq
  · exact fun a ha => ha.elim fun e he => he.2

end

end Play

/-- The search for an element is over before its fuel is: each round but the last takes a while. -/
theorem Locate.rounds_enough (b : Browser σ) (wanted : Wanted) (candidates : List String)
    (deadline : Nat) {fuel fuel' : Nat} (other : Option (String × String)) (w : Watch) {c : Clock}
    (s : World σ) (enough : (deadline - c.now + 99) / interval + 1 ≤ fuel)
    (enough' : (deadline - c.now + 99) / interval + 1 ≤ fuel') :
    rounds b wanted candidates deadline fuel other w c s =
      rounds b wanted candidates deadline fuel' other w c s := by
  induction fuel generalizing fuel' other c s with
  | zero => exact absurd enough (Nat.not_succ_le_zero _)
  | succ fuel ih =>
    obtain _ | fuel' := fuel'
    · exact absurd enough' (Nat.not_succ_le_zero _)
    rw [rounds, rounds, Timed.bind_apply, Timed.bind_apply]
    have keeps : b.Keeps fun _ => True := Undisturbed.keeps ⟨fun _ h => h, fun _ h => h⟩ b
    generalize hround : round b wanted ⟨[], other⟩ candidates w c s = r
    rcases r with ⟨(missed | located) | _ | _, c₁, s₁⟩
    · have hlater := ((maintains_round keeps wanted _ candidates).before trivial hround).now
      simp only
      rw [Timed.bind_of_done (Timed.now_apply ..), Timed.bind_of_done (Timed.now_apply ..)]
      split
      · rfl
      rename_i hleft
      rw [Timed.bind_apply, Timed.bind_apply]
      generalize hpause : Timed.pause (min interval (deadline - c₁.now)) w c₁ s₁ = r
      rcases r with ⟨u | _ | _, c₂, s₂⟩
      · have hclock := Timed.now_of_pause hpause
        have hrest : (deadline - c₂.now + 99) / interval + 1 ≤ (deadline - c.now + 99) / interval := by
          simp only [interval] at hclock ⊢
          omega
        exact ih missed.other s₂ (by omega) (by omega)
      · rfl
      · rfl
    · rfl
    · rfl
    · rfl

/-- The steps that may be begun in scenarios that play one another, as deep as there is room. -/
def volume (longest : Nat) : Nat → Nat
  | 0 => 0
  | room + 1 => longest * (1 + volume longest room)

/-- A step inside scenarios that were played on top of a stack, none of them twice. -/
structure Turn.OnTop (ids : List String) (stack : CallStack) (depth : Nat) (t : Turn) : Prop where
  distinct : t.stack.ids.Nodup
  above : ∃ more, t.stack.ids = stack.ids ++ more ∧ more ⊆ ids ∧ t.place.depth = depth + more.length

/-- What was played on top of a stack from one moment to another. The number of steps begun depends on
how long the scenarios are. -/
structure Stage.Grows (stage : Stage σ) (d : Desk) (ids : List String) (stack : CallStack)
    (depth : Nat) (count : Nat → Nat) (s s' : World σ) : Prop where
  desk : stage.Reaches d s'.desk
  turns : ∃ new, s'.turns = s.turns ++ new ∧ ∀ t ∈ new, t.OnTop ids stack depth
  begun : ∀ longest, stage.FindsShort d longest → s'.begun ≤ s.begun + count longest

theorem Turn.OnTop.depth_le {stack : CallStack} {depth : Nat} {t : Turn} (h : t.OnTop ids stack depth) :
    t.place.depth ≤ depth + stack.room ids := by
  obtain ⟨more, hstack, hmore, hdepth⟩ := h.above
  have hroom := CallStack.length_le_room (hstack ▸ h.distinct) hmore
  omega

theorem Turn.OnTop.of_push {stack : CallStack} {id : String} {depth : Nat} {t : Turn} (hid : id ∈ ids)
    (h : t.OnTop ids (stack.push id) (depth + 1)) : t.OnTop ids stack depth := by
  obtain ⟨distinct, more, hstack, hmore, hdepth⟩ := h
  refine ⟨distinct, id :: more, ?_, List.cons_subset.mpr ⟨hid, hmore⟩, ?_⟩
  · rw [hstack, CallStack.push, List.append_assoc, List.singleton_append]
  · rw [hdepth, List.length_cons]
    omega

namespace Stage.Grows

variable {stack : CallStack} {depth : Nat} {count count' : Nat → Nat} {s s' s'' : World σ}

theorem same (desk : stage.Reaches d s'.desk) (turns : s'.turns = s.turns) (begun : s'.begun = s.begun)
    (count : Nat → Nat) : stage.Grows d ids stack depth count s s' :=
  ⟨desk, ⟨[], by rw [turns, List.append_nil], by simp⟩, fun _ _ => begun ▸ Nat.le_add_right ..⟩

theorem trans (h : stage.Grows d ids stack depth count s s')
    (h' : stage.Grows d ids stack depth count' s' s'') :
    stage.Grows d ids stack depth (fun n => count n + count' n) s s'' := by
  obtain ⟨new, hturns, hnew⟩ := h.turns
  obtain ⟨new', hturns', hnew'⟩ := h'.turns
  refine ⟨h'.desk, ⟨new ++ new', ?_, List.forall_mem_append.mpr ⟨hnew, hnew'⟩⟩, ?_⟩
  · rw [hturns', hturns, List.append_assoc]
  · intro longest hshort
    have hle := h.begun longest hshort
    have hle' := h'.begun longest hshort
    omega

theorem mono (h : stage.Grows d ids stack depth count s s')
    (hcount : ∀ longest, stage.FindsShort d longest → count longest ≤ count' longest) :
    stage.Grows d ids stack depth count' s s' := by
  refine ⟨h.desk, h.turns, fun longest hshort => ?_⟩
  have hle := h.begun longest hshort
  have hle' := hcount longest hshort
  omega

theorem of_push {id : String} (hid : id ∈ ids)
    (h : stage.Grows d ids (stack.push id) (depth + 1) count s s') :
    stage.Grows d ids stack depth count s s' := by
  obtain ⟨new, hturns, hnew⟩ := h.turns
  exact ⟨h.desk, ⟨new, hturns, fun t ht => (hnew t ht).of_push hid⟩, h.begun⟩

end Stage.Grows

namespace Play

/-- What a runner may bring about, with so much room on the stack. -/
abbrev Extends (stage : Stage σ) (d : Desk) (ids : List String) : Conduct σ :=
  fun _ stack depth _ x _ y => stage.Reaches d x.2.desk → stack.ids.Nodup →
    stage.Grows d ids stack depth (fun longest => volume longest (stack.room ids)) x.2 y.2

section

variable {runner : Runner σ} {place : Place} {stack : CallStack} {step : Step} {w : Watch}
  (does : Does (Extends stage d ids) runner)

include does

theorem Happens.grows {r : Option (Except Failure Unit)} {a b : World σ × Trace}
    (h : Happens stage runner place stack step r a b) (reached : stage.Reaches d a.1.desk)
    (distinct : stack.ids.Nodup) :
    stage.Grows d ids stack place.depth (fun longest => volume longest (stack.room ids)) a.1 b.1 := by
  cases h with
  | nothing unread => exact .same reached rfl rfl _
  | reads instruction found noted succeeded => exact .same (by exact reached) (by rfl) (by rfl) _
  | plays reference plays bears =>
    cases plays with
    | refused watched answer => exact does answer reached distinct
    | settled watched answer => exact does answer reached distinct
    | givenUp watched dropped left => exact does dropped reached distinct

theorem Course.grows {r : Option (Except Failure Unit)} {x y : World σ × Trace}
    (h : Course stage runner place stack step x r y) (reached : stage.Reaches d x.1.desk)
    (distinct : stack.ids.Nodup) :
    stage.Grows d ids stack place.depth (fun longest => volume longest (stack.room ids)) x.1 y.1 := by
  obtain ⟨a, b, _, _, first, happens, last⟩ := h.moved
  obtain ⟨desk, ⟨new, hturns, hnew⟩, hbegun⟩ :=
    happens.grows does (reached.trans first.desk) distinct
  refine ⟨desk.trans last.desk, ⟨new, ?_, hnew⟩, ?_⟩
  · rw [last.turns, hturns, first.turns]
  · rw [last.begun, ← first.begun]
    exact hbegun

/-- A turn is begun, and what its step has played inside. -/
theorem Course.grows_turn {r : Option (Except Failure Unit)} {s : World σ} {y : World σ × Trace}
    (h : Course stage runner place stack step (stage.opens place step s, .empty) r y)
    (reached : stage.Reaches d s.desk) (distinct : stack.ids.Nodup) :
    stage.Grows d ids stack place.depth (fun longest => 1 + volume longest (stack.room ids)) s y.1 := by
  rw [← stage.desk_opens place step s] at reached
  obtain ⟨desk, ⟨new, hturns, hnew⟩, hbegun⟩ := h.grows does reached distinct
  refine ⟨desk, ⟨new, by rw [hturns, stage.turns_opens], hnew⟩, fun longest hshort => ?_⟩
  have hle := hbegun longest hshort
  rw [stage.begun_opens] at hle
  omega

theorem Ends.grows {s s' : World σ} {t : Turn} (h : Ends stage runner w s t s')
    (reached : stage.Reaches d s.desk) (distinct : t.stack.ids.Nodup) :
    stage.Grows d ids t.stack t.place.depth
      (fun longest => 1 + volume longest (t.stack.room ids)) s s' := by
  obtain @⟨r, trace, s', millis, requests, attempted, failure, outcome⟩ := h
  obtain ⟨r', course⟩ := attempted.tried.ended
  obtain ⟨desk, ⟨new, hturns, hnew⟩, hbegun⟩ := course.grows_turn does reached distinct
  refine ⟨by rw [stage.desk_closes]; exact desk, ⟨new ++ [t], ?_, ?_⟩, ?_⟩
  · rw [stage.turns_closes, hturns, List.append_assoc]
  · refine List.forall_mem_append.mpr ⟨hnew, ?_⟩
    intro u hu
    obtain rfl := List.mem_singleton.mp hu
    exact ⟨distinct, [], by simp, by simp, rfl⟩
  · rw [stage.begun_closes]
    exact hbegun

theorem Row.grows {id : String} {depth index : Nat} {s s' : World σ} {played : List Turn}
    (h : Row stage runner id stack depth w index s played s') (reached : stage.Reaches d s.desk)
    (distinct : stack.ids.Nodup) :
    stage.Grows d ids stack depth
      (fun longest => played.length * (1 + volume longest (stack.room ids))) s s' := by
  induction h with
  | none => exact .same reached rfl rfl _
  | @next index c c' s s₁ s' step t played turned later ih =>
    have hstack : t.stack = stack := turned.2.1
    have hdepth : t.place.depth = depth := congrArg Place.depth turned.1
    have first := turned.ends.grows does reached (hstack ▸ distinct)
    rw [hstack, hdepth] at first
    refine (first.trans (ih first.desk)).mono fun longest _ => ?_
    rw [List.length_cons, Nat.succ_mul, Nat.add_comm]

theorem Parted.grows {id : String} {depth index : Nat} {steps : List Step} {s s' : World σ}
    {played : List Turn} (h : Parted stage runner id stack depth w index steps s played s')
    (reached : stage.Reaches d s.desk) (distinct : stack.ids.Nodup) :
    stage.Grows d ids stack depth
      (fun longest => steps.length * (1 + volume longest (stack.room ids))) s s' := by
  obtain ⟨-, step, s₁, hstep, row, breaks⟩ := h
  have hlength := (List.getElem?_eq_some_iff.mp hstep).1
  have first := row.grows does reached distinct
  obtain ⟨trace, r, course⟩ := breaks.course
  refine (first.trans (course.grows_turn does first.desk distinct)).mono fun longest _ => ?_
  rw [← Nat.succ_mul]
  exact Nat.mul_le_mul_right _ hlength

theorem Played.grows {id : String} {depth index : Nat} {steps : List Step} {x y : Clock × World σ}
    {played : List Turn} {r : Report}
    (h : Played stage runner id stack depth w index steps x played r y)
    (reached : stage.Reaches d x.2.desk) (distinct : stack.ids.Nodup) :
    stage.Grows d ids stack depth
      (fun longest => steps.length * (1 + volume longest (stack.room ids))) x.2 y.2 :=
  (h.row.grows does reached distinct).mono fun _ _ => Nat.mul_le_mul_right _ h.upTo.1

theorem stepsFrom_grows {id : String} {depth index : Nat} {steps : List Step} {c c' : Clock}
    {s s' : World σ} {e : Exit Report}
    (h : stepsFrom stage runner id stack depth index steps w c s = (e, c', s'))
    (reached : stage.Reaches d s.desk) (distinct : stack.ids.Nodup) :
    stage.Grows d ids stack depth
      (fun longest => steps.length * (1 + volume longest (stack.room ids))) s s' := by
  cases e with
  | done r =>
    obtain ⟨played, hplayed⟩ := played_of_done h
    exact hplayed.grows does reached distinct
  | cancelled =>
    obtain ⟨played, parted⟩ := parted_of_left h (by simp)
    exact parted.grows does reached distinct
  | expired =>
    obtain ⟨played, parted⟩ := parted_of_left h (by simp)
    exact parted.grows does reached distinct

theorem Entered.grows (finds : stage.FindsOnly d ids) {id : String} {depth : Nat}
    {x y : Clock × World σ} {e : Exit (Except Failure Report)}
    (h : Entered stage runner id stack depth w x e y) : Extends stage d ids id stack depth w x e y := by
  intro reached distinct
  -- A scenario that is entered has at most `longest` steps, and leaves less room to those inside.
  have inside : ∀ {scenario : Scenario}, stack.contains id = false →
      (stage.scenarios.load x.2.desk id).1 = .ok (some scenario) → ∀ {s s' : World σ},
      stage.Grows d ids (stack.push id) (depth + 1) (fun longest => scenario.steps.length *
        (1 + volume longest ((stack.push id).room ids))) s s' →
      stage.Grows d ids stack depth (fun longest => volume longest (stack.room ids)) s s' := by
    intro scenario off loaded s s' grows
    have hid := finds _ reached _ _ loaded
    refine (grows.of_push hid).mono fun longest hshort => ?_
    rw [← CallStack.room_push hid off, volume]
    exact Nat.mul_le_mul_right _ (hshort _ reached _ _ loaded)
  cases h with
  | refused lines => exact .same (by exact reached) (by rfl) (by rfl) _
  | played off loaded played =>
    have distinct' := CallStack.nodup_push distinct off
    obtain ⟨desk, turns, begun⟩ := inside off loaded (played.grows does reached distinct')
    exact ⟨desk, turns, begun⟩
  | parted off loaded left parted =>
    have distinct' := CallStack.nodup_push distinct off
    obtain ⟨desk, turns, begun⟩ := inside off loaded (parted.grows does reached distinct')
    exact ⟨desk, turns, begun⟩

end

theorem nested_extends (finds : stage.FindsOnly d ids) (n : Nat) :
    Does (Extends stage d ids) (nested stage n) :=
  nested_does (fun reached _ => .same reached rfl rfl _)
    (fun _ does _ _ _ _ _ _ _ entered => entered.grows does finds) n

/-- Playing on a stack comes to its end by itself. What it comes to does not depend on how the runners
were unrolled, nor on what is done where they are not to get: `play` is the playing with a runner. -/
structure Settles (stage : Stage σ) (d : Desk) (ids : List String) (stack : CallStack) (depth : Nat)
    (count : Nat → Nat) (play : Runner σ → Timed (World σ) α) (w : Watch) (c : Clock) (s : World σ)
    (e : Exit α) (c' : Clock) (s' : World σ) : Prop where
  unrolled : ∀ r, Unrolls stage r → ∀ n, ids.length < n → play (r n) w c s = (e, c', s')
  runner : (∀ d', stage.Reaches d d' → stage.FindsOnly d (stage.scenarios.ids d')) →
    play (runner stage) w c s = (e, c', s')
  turns : ∃ new, s'.turns = s.turns ++ new ∧
    ∀ t ∈ new, t.OnTop ids stack depth ∧ t.place.depth ≤ depth + stack.room ids
  begun : ∀ longest, stage.FindsShort d longest → s'.begun ≤ s.begun + count longest
  returns : w = .none → ∃ a, e = .done a

theorem settles_of_grows {α : Type} {stack : CallStack} {depth : Nat} {count : Nat → Nat}
    {play : Runner σ → Timed (World σ) α} {w : Watch} {c c' : Clock} {s s' : World σ} {e : Exit α}
    (unrolled : ∀ r, Unrolls stage r → ∀ n, ids.length < n → play (r n) w c s = (e, c', s'))
    (runner : (∀ d', stage.Reaches d d' → stage.FindsOnly d (stage.scenarios.ids d')) →
      play (runner stage) w c s = (e, c', s'))
    (grows : stage.Grows d ids stack depth count s s') (returns : w = .none → ∃ a, e = .done a) :
    Settles stage d ids stack depth count play w c s e c' s' := by
  obtain ⟨new, hturns, hnew⟩ := grows.turns
  exact ⟨unrolled, runner, ⟨new, hturns, fun t ht => ⟨hnew t ht, (hnew t ht).depth_le⟩⟩, grows.begun,
    returns⟩

section

variable (finds : stage.FindsOnly d ids)
  (listed : ∀ d', stage.Reaches d d' → stage.FindsOnly d (stage.scenarios.ids d'))

include finds listed

/-- A run is given fuel for one scenario more than its source has. -/
theorem follows_runner {stack : CallStack} (distinct : stack.ids.Nodup) {n : Nat} (hn : ids.length < n)
    (id : String) (depth : Nat) :
    (Likeness.equal stage d).Reports (nested stage n id stack depth) (runner stage id stack depth) := by
  rintro w v hw c s _ ⟨rfl, hs⟩
  have hlimit : (stage.scenarios.ids s.desk).length < depthLimit stage s.desk := Nat.lt_succ_self _
  have hunrolls := unrolls_nested stage
  -- Both are as deep as the deeper of the two would be.
  generalize hdeep : n + depthLimit stage s.desk = deep
  have hrunner : runner stage id stack depth v c s = nested stage deep id stack depth v c s :=
    unrolled_eq (listed s.desk hs) hunrolls hunrolls distinct hlimit (by omega) id depth v c hs
  rw [hrunner]
  exact follows_unrolled_equal finds hunrolls hunrolls distinct hn (by omega) id depth w v hw c s s
    ⟨rfl, hs⟩

end

open Preflight (nowhere endless)

end Play

end Rehearsal
