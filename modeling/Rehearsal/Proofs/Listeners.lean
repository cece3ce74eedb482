import Mathlib.Data.List.Permutation
import Mathlib.Logic.Function.Basic
import Rehearsal.DevTools.Tab

/-! # Listeners

Each kind of notice about the requests of a page has a listener of its own, with a queue of its own. A
listener hears its notices in their order; nothing orders the listeners among themselves. What becomes
of a request depends on nothing but the order in which its own notices are heard: it is kept whole if
this is the order in which they were told, its status is lost if its response is heard after its end,
and it is lost altogether if its end is heard before its beginning.
-/
namespace Rehearsal.DevTools

open Decimal (Binary64)

namespace Notice

inductive Kind where
  | sent
  | response
  | finished
  | failed
deriving DecidableEq, Repr

def kind : Notice → Kind
  | sent .. => .sent
  | response .. => .response
  | finished .. => .finished
  | failed .. => .failed

/-- The request that a notice is about. -/
def request : Notice → String
  | sent id _ _ => id
  | response id _ => id
  | finished id _ => id
  | failed id _ => id

end Notice

/-- The notices on their way to the listener of each kind, and the traffic put together so far. -/
structure Listeners where
  queue : Notice.Kind → List Notice
  traffic : Traffic

/-- The page tells of a request, or a listener hears the next of its notices at some moment. -/
inductive Hearing where
  | tells (n : Notice)
  | hears (now : Nat) (n : Notice)

/-- What the page tells, in its order. -/
def told : List Hearing → List Notice :=
  List.filterMap fun
    | .tells n => some n
    | .hears _ _ => none

/-- What is heard, by whichever listener, in the order in which it is. -/
def heard : List Hearing → List (Nat × Notice) :=
  List.filterMap fun
    | .tells _ => none
    | .hears now n => some (now, n)

namespace Listeners

def start : Listeners := ⟨fun _ => [], .empty⟩

/-- No notice is on its way any more. -/
def Idle (l : Listeners) : Prop := ∀ kind, l.queue kind = []

inductive Does : Listeners → Hearing → Listeners → Prop
  | tells {l : Listeners} {n : Notice} :
    Does l (.tells n) { l with queue := Function.update l.queue n.kind (l.queue n.kind ++ [n]) }
  | hears {l : Listeners} {n : Notice} {rest : List Notice} {now : Nat}
    (next : l.queue n.kind = n :: rest) :
    Does l (.hears now n) ⟨Function.update l.queue n.kind rest, l.traffic.hear now n⟩

inductive Runs : Listeners → List Hearing → Listeners → Prop
  | nil (l : Listeners) : Runs l [] l
  | cons {l l' l'' : Listeners} {act : Hearing} {acts : List Hearing} (first : Does l act l')
    (rest : Runs l' acts l'') : Runs l (act :: acts) l''

end Listeners

namespace Traffic

/-- The traffic after all these notices were heard. -/
def hearAll (t : Traffic) (hs : List (Nat × Notice)) : Traffic :=
  hs.foldl (fun t h => t.hear h.1 h.2) t

@[simp] theorem hearAll_nil (t : Traffic) : t.hearAll [] = t := rfl

@[simp] theorem hearAll_cons (t : Traffic) (h : Nat × Notice) (hs : List (Nat × Notice)) :
    t.hearAll (h :: hs) = (t.hear h.1 h.2).hearAll hs := rfl

theorem hearAll_concat (t : Traffic) (hs : List (Nat × Notice)) (h : Nat × Notice) :
    t.hearAll (hs ++ [h]) = (t.hearAll hs).hear h.1 h.2 :=
  List.foldl_concat ..

end Traffic

namespace Listeners

/-- Every listener is told its notices in the order in which the page tells them. -/
theorem Runs.queues {l l' : Listeners} {acts : List Hearing} (h : Runs l acts l') (kind : Notice.Kind) :
    l.queue kind ++ (told acts).filter (·.kind = kind) =
      ((heard acts).map Prod.snd).filter (·.kind = kind) ++ l'.queue kind := by
  induction h with
  | nil l => simp [told, heard]
  | @cons l l' l'' act acts first rest ih =>
    cases first with
    | @tells n =>
      by_cases hkind : n.kind = kind
      · subst hkind
        simpa [told, heard] using ih
      · simpa [told, heard, hkind, Function.update_of_ne (Ne.symm hkind)] using ih
    | @hears n rest now next =>
      by_cases hkind : n.kind = kind
      · subst hkind
        simpa [told, heard, next] using ih
      · simpa [told, heard, hkind, Function.update_of_ne (Ne.symm hkind)] using ih

theorem Runs.traffic {l l' : Listeners} {acts : List Hearing} (h : Runs l acts l') :
    l'.traffic = l.traffic.hearAll (heard acts) := by
  induction h with
  | nil l => rfl
  | cons first rest ih =>
    cases first with
    | tells => exact ih
    | hears next => exact ih

/-- A notice that is heard as soon as it is told is heard as by the tab. -/
theorem runs_atOnce (π : Type) (page : π) (l : Listeners) (idle : l.Idle) (now : Nat) (n : Notice) :
    Runs l [.tells n, .hears now n] ⟨l.queue, (Tab.hear now ⟨page, l.traffic, true⟩ n).traffic⟩ := by
  have hqueue : (Function.update l.queue n.kind (l.queue n.kind ++ [n])) n.kind = n :: [] := by
    simp [idle n.kind]
  have hback : Function.update (Function.update l.queue n.kind (l.queue n.kind ++ [n])) n.kind [] =
      l.queue := by
    rw [Function.update_idem, ← idle n.kind, Function.update_eq_self]
  have hears : Does { l with queue := Function.update l.queue n.kind (l.queue n.kind ++ [n]) } (.hears now n)
      _ := .hears hqueue
  rw [hback] at hears
  exact .cons .tells (.cons hears (.nil _))

end Listeners

namespace Traffic

/-- What a notice adds to the requests that have ended. -/
def gain (t : Traffic) (now : Nat) (n : Notice) : List NetworkRequest :=
  let ends (size : Nat) (error : Option String) : List NetworkRequest :=
    (t.pending.find? (·.id == n.request)).toList.map fun r =>
      ⟨r.url, r.method, r.status, now - r.sentAt, size, error⟩
  match n with
  | .sent .. => []
  | .response .. => []
  | .finished _ length => ends (sizeOf length) none
  | .failed _ reason => ends 0 (some reason)

theorem ended_complete (t : Traffic) (now : Nat) (id : String) (size : Nat) (error : Option String) :
    (t.complete now id size error).ended = t.ended ++
      (t.pending.find? (·.id == id)).toList.map fun r =>
        ⟨r.url, r.method, r.status, now - r.sentAt, size, error⟩ := by
  unfold complete
  cases t.pending.find? (·.id == id) with
  | none => simp
  | some r => rfl

theorem ended_hear (t : Traffic) (now : Nat) (n : Notice) :
    (t.hear now n).ended = t.ended ++ t.gain now n := by
  cases n with
  | sent id url method => exact (List.append_nil _).symm
  | response id status => exact (List.append_nil _).symm
  | finished id length => exact ended_complete ..
  | failed id reason => exact ended_complete ..

/-- The requests under way with this identifier. -/
def pendingOf (t : Traffic) (id : String) : List PendingRequest := t.pending.filter (·.id == id)

theorem pending_complete (t : Traffic) (now : Nat) (id : String) (size : Nat) (error : Option String) :
    (t.complete now id size error).pending = t.pending.filter (·.id != id) := by
  unfold complete
  cases h : t.pending.find? (·.id == id) with
  | none =>
    refine (List.filter_eq_self.mpr fun r hr => ?_).symm
    simpa [bne] using List.find?_eq_none.mp h r hr
  | some r => rfl

/-- A notice about one request leaves the others alone. -/
theorem pendingOf_hear_of_ne {t : Traffic} {id : String} {n : Notice} (h : n.request ≠ id) (now : Nat) :
    (t.hear now n).pendingOf id = t.pendingOf id := by
  have hfree : (t.pending.filter (·.id != n.request)).filter (·.id == id) =
      t.pending.filter (·.id == id) := by
    rw [List.filter_filter]
    refine List.filter_congr fun r _ => ?_
    by_cases hid : r.id = id
    · simp [hid, Ne.symm h]
    · simp [hid]
  unfold pendingOf
  cases n with
  | sent other url method =>
    have hother : ¬ other = id := h
    simp only [Notice.request] at hfree
    simpa [hear, hother] using hfree
  | response other status =>
    have hother : ¬ other = id := h
    show (t.pending.map _).filter _ = _
    induction t.pending with
    | nil => rfl
    | cons r rest ih =>
      by_cases hr : r.id = other
      · have hne : ¬ r.id = id := fun he => hother (hr.symm.trans he)
        simpa [hr, hne, hother] using ih
      · simp only [List.map_cons, hr, if_false, List.filter_cons]
        rw [ih]
  | finished other length =>
    show ((t.complete now other _ _).pending).filter _ = _
    rw [pending_complete]
    exact hfree
  | failed other reason =>
    show ((t.complete now other _ _).pending).filter _ = _
    rw [pending_complete]
    exact hfree

theorem filter_gone (rs : List PendingRequest) (id : String) :
    (rs.filter (·.id != id)).filter (·.id == id) = [] := by
  rw [List.filter_filter, List.filter_eq_nil_iff]
  intro r _
  simp

/-- A status is put down for the request that it is about. -/
theorem filter_answered (rs : List PendingRequest) (id : String) (status : Option Nat) :
    (rs.map fun r => if r.id = id then { r with status } else r).filter (·.id == id) =
      (rs.filter (·.id == id)).map fun r => { r with status } := by
  induction rs with
  | nil => rfl
  | cons r rest ih =>
    by_cases hr : r.id = id
    · simpa [hr] using ih
    · simpa [hr] using ih

/-- What a notice does for its own request depends on nothing but what is known of that. -/
theorem hear_congr {t u : Traffic} {n : Notice} (h : t.pendingOf n.request = u.pendingOf n.request)
    (now : Nat) :
    t.gain now n = u.gain now n ∧
      (t.hear now n).pendingOf n.request = (u.hear now n).pendingOf n.request := by
  have hfound : t.pending.find? (·.id == n.request) = u.pending.find? (·.id == n.request) := by
    rw [← List.head?_filter, ← List.head?_filter]
    exact congrArg List.head? h
  refine ⟨by simp only [gain, hfound], ?_⟩
  unfold pendingOf at h ⊢
  cases n with
  | sent id url method =>
    simp only [hear, Notice.request, List.filter_cons, beq_self_eq_true, if_true, filter_gone]
  | response id status =>
    show (t.pending.map _).filter _ = (u.pending.map _).filter _
    rw [Notice.request, filter_answered, filter_answered]
    exact congrArg _ h
  | finished id length =>
    show ((t.complete now id _ _).pending).filter _ = ((u.complete now id _ _).pending).filter _
    rw [pending_complete, pending_complete]
    exact (filter_gone _ id).trans (filter_gone _ id).symm
  | failed id reason =>
    show ((t.complete now id _ _).pending).filter _ = ((u.complete now id _ _).pending).filter _
    rw [pending_complete, pending_complete]
    exact (filter_gone _ id).trans (filter_gone _ id).symm

/-- Of one request, what is known after any notices is what is known after its own. -/
theorem pendingOf_hearAll (id : String) (hs : List (Nat × Notice)) :
    (empty.hearAll hs).pendingOf id = (empty.hearAll (hs.filter (·.2.request = id))).pendingOf id := by
  induction hs using List.reverseRecOn with
  | nil => rfl
  | append_singleton hs h ih =>
    rw [hearAll_concat]
    by_cases hid : h.2.request = id
    · subst hid
      have hown : (hs ++ [h]).filter (·.2.request = h.2.request) =
          hs.filter (·.2.request = h.2.request) ++ [h] := by simp
      rw [hown, hearAll_concat]
      exact (hear_congr ih h.1).2
    · have hown : (hs ++ [h]).filter (·.2.request = id) = hs.filter (·.2.request = id) := by
        simp [hid]
      rw [hown, pendingOf_hear_of_ne hid]
      exact ih

theorem flatMap_only {α β : Type} [DecidableEq α] {as : List α} (distinct : as.Nodup) {a : α} (mem : a ∈ as)
    (bs : List β) : (as.flatMap fun x => if x = a then bs else []) = bs := by
  induction as with
  | nil => cases mem
  | cons b rest ih =>
    obtain ⟨hb, hrest⟩ := List.nodup_cons.mp distinct
    by_cases hba : b = a
    · subst hba
      have hnone : (rest.flatMap fun x => if x = b then bs else []) = [] := by
        rw [List.flatMap_eq_nil_iff]
        intro x hx
        have hne : x ≠ b := fun he => hb (he ▸ hx)
        simp [hne]
      simp [hnone]
    · have hmem : a ∈ rest := (List.mem_cons.mp mem).resolve_left (Ne.symm hba)
      simp [hba, ih hrest hmem]

/-- The requests that have ended are those that the notices about each of them end, request by request. -/
theorem ended_hearAll_perm {ids : List String} (distinct : ids.Nodup) {hs : List (Nat × Notice)}
    (known : ∀ h ∈ hs, h.2.request ∈ ids) :
    (empty.hearAll hs).ended.Perm
      (ids.flatMap fun id => (empty.hearAll (hs.filter (·.2.request = id))).ended) := by
  induction hs using List.reverseRecOn with
  | nil => simp [empty]
  | append_singleton hs h ih =>
    have hknown : ∀ h' ∈ hs, h'.2.request ∈ ids := fun h' hh' => known h' (by simp [hh'])
    have hmem : h.2.request ∈ ids := known h (by simp)
    let own (id : String) : List NetworkRequest := (empty.hearAll (hs.filter (·.2.request = id))).ended
    let gained (id : String) : List NetworkRequest :=
      if id = h.2.request then (empty.hearAll hs).gain h.1 h.2 else []
    have hstep : ∀ id, (empty.hearAll ((hs ++ [h]).filter (·.2.request = id))).ended =
        own id ++ gained id := by
      intro id
      by_cases hid : id = h.2.request
      · subst hid
        have hown : (hs ++ [h]).filter (·.2.request = h.2.request) =
            hs.filter (·.2.request = h.2.request) ++ [h] := by simp
        rw [hown, hearAll_concat, ended_hear]
        simp [own, gained, (hear_congr (pendingOf_hearAll h.2.request hs) h.1).1]
      · simp [own, gained, hid, Ne.symm hid]
    -- One more notice adds, to what its own request has ended, what it ends itself.
    have hgained : ids.flatMap gained = (empty.hearAll hs).gain h.1 h.2 := flatMap_only distinct hmem _
    rw [hearAll_concat, ended_hear]
    simp only [hstep]
    apply List.Perm.trans _ (List.flatMap_append_perm ids own gained)
    rw [hgained]
    exact (ih hknown).append_right _

end Traffic

/-- How a request ends. -/
inductive Ending where
  | finished (length : Binary64)
  | failed (reason : String)
deriving DecidableEq, Repr

/-- A request that the page makes, from its sending to its end. -/
structure Exchange where
  id : String
  url : String
  method : String
  status : Int
  ending : Ending
deriving DecidableEq, Repr

namespace Exchange

def last (x : Exchange) : Notice :=
  match x.ending with
  | .finished length => .finished x.id length
  | .failed reason => .failed x.id reason

/-- What the page tells of a request, in this order. -/
def notices (x : Exchange) : List Notice := [.sent x.id x.url x.method, .response x.id x.status, x.last]

/-- The record that a request is to leave, but for the time it took. -/
def record (x : Exchange) : NetworkRequest where
  url := x.url
  method := x.method
  status := Traffic.status? x.status
  durationMs := 0
  responseSize := match x.ending with
    | .finished length => Traffic.sizeOf length
    | .failed _ => 0
  error := match x.ending with
    | .finished _ => none
    | .failed reason => some reason

/-- The kinds of the notices about a request, in the order in which they are heard. -/
def order (x : Exchange) (hs : List (Nat × Notice)) : List Notice.Kind :=
  (hs.filter (·.2.request = x.id)).map (·.2.kind)

/-- What is recorded of a request whose notices are heard in an order: all of it, all but the status, or
nothing. -/
def caught (x : Exchange) (order : List Notice.Kind) : List NetworkRequest :=
  if order = [.sent, .response, x.last.kind] then [x.record]
  else if [.sent, x.last.kind].Sublist order then [{ x.record with status := none }]
  else []

end Exchange

/-- A request as recorded, without the time it took. -/
def timeless (r : NetworkRequest) : NetworkRequest := { r with durationMs := 0 }

theorem orders_of_three {α : Type} {a b c p q r : α} (h : [p, q, r].Perm [a, b, c]) :
    [p, q, r] ∈ [[a, b, c], [b, a, c], [c, b, a], [b, c, a], [c, a, b], [a, c, b]] := by
  have hmem : [p, q, r] ∈ [a, b, c].permutations := List.mem_permutations.mpr h
  simpa [List.permutations, List.permutationsAux, List.permutationsAux.rec] using hmem

open Traffic in
/-- All six orders in which the three notices about a request can be heard. -/
theorem Exchange.caught_of_perm (x : Exchange) (hs : List (Nat × Notice))
    (h : (hs.map Prod.snd).Perm x.notices) :
    (empty.hearAll hs).ended.map timeless = x.caught (hs.map (·.2.kind)) := by
  have hlength : hs.length = 3 := by simpa [notices] using h.length_eq
  obtain ⟨⟨t₁, n₁⟩, ⟨t₂, n₂⟩, ⟨t₃, n₃⟩, rfl⟩ := List.length_eq_three.mp hlength
  have horders := orders_of_three h
  simp only [List.mem_cons, List.cons.injEq, and_true, List.not_mem_nil, or_false] at horders
  obtain ⟨id, url, method, status, ending⟩ := x
  rcases horders with ⟨rfl, rfl, rfl⟩ | ⟨rfl, rfl, rfl⟩ | ⟨rfl, rfl, rfl⟩ | ⟨rfl, rfl, rfl⟩ |
    ⟨rfl, rfl, rfl⟩ | ⟨rfl, rfl, rfl⟩ <;>
  cases ending <;>
  simp [empty, hear, complete, last, Notice.kind, caught, record, timeless,
    ← List.isSublist_iff_sublist, List.isSublist]

namespace Exchange

theorem caught_eq_record {x : Exchange} {order : List Notice.Kind} :
    x.caught order = [x.record] ↔ order = [.sent, .response, x.last.kind] ∨
      [.sent, x.last.kind].Sublist order ∧ Traffic.status? x.status = none := by
  unfold caught
  by_cases hwhole : order = [.sent, .response, x.last.kind]
  · simp [hwhole]
  · by_cases hkept : [.sent, x.last.kind].Sublist order
    · simp [hwhole, hkept, record, eq_comm]
    · simp [hwhole, hkept]

/-- How many records there are, and with a status: what a request's notices leave, if it is not the record
they should, is less. -/
def weight (rs : List NetworkRequest) : Nat := rs.length + rs.countP (·.status.isSome)

theorem weight_append (rs rs' : List NetworkRequest) : weight (rs ++ rs') = weight rs + weight rs' := by
  simp only [weight, List.length_append, List.countP_append]
  omega

theorem weight_caught (x : Exchange) (order : List Notice.Kind) :
    x.caught order = [x.record] ∨ weight (x.caught order) < weight [x.record] := by
  unfold caught
  by_cases hwhole : order = [.sent, .response, x.last.kind]
  · exact .inl (if_pos hwhole)
  · rw [if_neg hwhole]
    by_cases hkept : [.sent, x.last.kind].Sublist order
    · rw [if_pos hkept]
      cases hstatus : Traffic.status? x.status with
      | none => exact .inl (by simp [record, hstatus])
      | some status => exact .inr (by simp [weight, record, hstatus])
    · rw [if_neg hkept]
      exact .inr (by simp only [weight, List.length_singleton, List.length_nil, List.countP_nil]; omega)

theorem weight_flatMap_caught (xs : List Exchange) (orders : Exchange → List Notice.Kind) :
    weight (xs.flatMap fun x => x.caught (orders x)) ≤ weight (xs.map record) := by
  induction xs with
  | nil => exact le_refl _
  | cons x xs ih =>
    rw [List.flatMap_cons, List.map_cons, weight_append, ← List.singleton_append, weight_append]
    rcases weight_caught x (orders x) with hx | hx
    · rw [hx]
      omega
    · omega

/-- The records are all there, with their statuses, only if each request left its own. -/
theorem caught_all {xs : List Exchange} {orders : Exchange → List Notice.Kind} :
    (xs.flatMap fun x => x.caught (orders x)).Perm (xs.map record) ↔
      ∀ x ∈ xs, x.caught (orders x) = [x.record] := by
  constructor
  · intro h
    have hweight : weight (xs.map record) ≤ weight (xs.flatMap fun x => x.caught (orders x)) := by
      simp only [weight, h.length_eq, h.countP_eq, le_refl]
    clear h
    induction xs with
    | nil => simp
    | cons x xs ih =>
      rw [List.flatMap_cons, List.map_cons, weight_append, ← List.singleton_append, weight_append] at hweight
      -- The others weigh no more than they should, so this one cannot weigh less.
      have hrest := weight_flatMap_caught xs orders
      have hx : x.caught (orders x) = [x.record] := by
        apply (weight_caught x (orders x)).resolve_right
        omega
      rw [hx] at hweight
      exact List.forall_mem_cons.mpr ⟨hx, ih (by omega)⟩
  · intro h
    rw [List.flatMap_congr h, ← List.map_eq_flatMap]

end Exchange

/-- The page tells of these requests, of each all three of its notices in their order. -/
structure Tells (xs : List Exchange) (ns : List Notice) : Prop where
  distinct : (xs.map Exchange.id).Nodup
  whole : ∀ x ∈ xs, ns.filter (·.request = x.id) = x.notices
  known : ∀ n ∈ ns, n.request ∈ xs.map Exchange.id

namespace Listeners

/-- Once no notice is on its way, what was told has been heard, in some order. -/
theorem Runs.heard_perm {acts : List Hearing} {l : Listeners} (runs : Runs start acts l) (idle : l.Idle) :
    ((heard acts).map Prod.snd).Perm (told acts) := by
  rw [List.perm_iff_count]
  intro n
  have hqueues := runs.queues n.kind
  rw [idle n.kind, List.append_nil] at hqueues
  have hcount : ∀ ns : List Notice, (ns.filter (·.kind = n.kind)).count n = ns.count n :=
    fun ns => List.count_filter (by simp)
  rw [← hcount, ← hcount (told acts), ← hqueues]
  rfl

variable {acts : List Hearing} {l : Listeners} {xs : List Exchange}

/-- What the listeners record of each request depends on the order in which its own notices are heard.
The records are those that the requests should leave exactly if of every request each notice is heard
before the next was, but for a response without a status, which may be heard at any time. -/
theorem captured (runs : Runs start acts l) (idle : l.Idle) (tells : Tells xs (told acts)) :
    (l.traffic.ended.map timeless).Perm (xs.flatMap fun x => x.caught (x.order (heard acts))) ∧
    ((l.traffic.ended.map timeless).Perm (xs.map Exchange.record) ↔
      ∀ x ∈ xs, x.order (heard acts) = [.sent, .response, x.last.kind] ∨
        [.sent, x.last.kind].Sublist (x.order (heard acts)) ∧ Traffic.status? x.status = none) := by
  have hperm := runs.heard_perm idle
  have hknown : ∀ h ∈ heard acts, h.2.request ∈ xs.map Exchange.id := fun h hh =>
    tells.known _ (hperm.mem_iff.mp (List.mem_map_of_mem hh))
  have hended : l.traffic.ended.Perm (xs.flatMap fun x =>
      (Traffic.empty.hearAll ((heard acts).filter (·.2.request = x.id))).ended) := by
    rw [runs.traffic]
    simpa [start, List.flatMap_map] using Traffic.ended_hearAll_perm tells.distinct hknown
  have hcaught : ∀ x ∈ xs,
      (Traffic.empty.hearAll ((heard acts).filter (·.2.request = x.id))).ended.map timeless =
        x.caught (x.order (heard acts)) := by
    intro x hx
    apply x.caught_of_perm
    have hown := hperm.filter (·.request = x.id)
    rw [tells.whole x hx, List.filter_map] at hown
    exact hown
  have hrecords : (l.traffic.ended.map timeless).Perm
      (xs.flatMap fun x => x.caught (x.order (heard acts))) := by
    have hmap := hended.map timeless
    rw [List.map_flatMap, List.flatMap_congr hcaught] at hmap
    exact hmap
  constructor
  · exact hrecords
  · simp only [← Exchange.caught_eq_record, ← Exchange.caught_all]
    exact ⟨hrecords.symm.trans, hrecords.trans⟩

/-- A request of 512 bytes that is answered with 200. -/
def answered : Exchange := ⟨"1", "https://n.test/", "GET", 200, .finished ⟨false, 512, 0⟩⟩

/-- The listener of responses comes last. -/
def responseLast : List Hearing :=
  answered.notices.map .tells ++
    [.hears 0 (.sent "1" "https://n.test/" "GET"), .hears 0 answered.last, .hears 0 (.response "1" 200)]

theorem runs_responseLast : ∃ l, Runs start responseLast l ∧ l.Idle := by
  have hears {l : Listeners} {n : Notice} (only : l.queue n.kind = [n]) : Does l (.hears 0 n) _ := .hears only
  refine ⟨_, .cons .tells (.cons .tells (.cons .tells
    (.cons (hears rfl) (.cons (hears rfl) (.cons (hears rfl) (.nil _)))))), ?_⟩
  intro kind
  cases kind <;> rfl

theorem tells_responseLast : Tells [answered] (told responseLast) where
  distinct := List.nodup_singleton _
  whole := by simp [told, responseLast, answered, Exchange.notices, Exchange.last, Notice.request]
  known := by simp [told, responseLast, answered, Exchange.notices, Exchange.last, Notice.request]

theorem captured_responseLast : ∃ l, Runs start responseLast l ∧ l.Idle ∧
    Tells [answered] (told responseLast) ∧
    (l.traffic.ended.map timeless).Perm [{ answered.record with status := none }] ∧
    ¬(l.traffic.ended.map timeless).Perm [answered.record] := by
  obtain ⟨l, runs, idle⟩ := runs_responseLast
  obtain ⟨hrecords, hwhole⟩ := captured runs idle tells_responseLast
  have horder : answered.order (heard responseLast) = [.sent, .finished, .response] := by decide
  simp only [List.forall_mem_singleton, List.flatMap_singleton, List.map_singleton, horder] at hrecords hwhole
  refine ⟨l, runs, idle, tells_responseLast, hrecords, fun h => ?_⟩
  exact absurd (hwhole.mp h) (by decide)

/-- It is not so that every request leaves its record, whatever the order in which the listeners hear. -/
theorem not_captured_whole : ¬∀ (xs : List Exchange) (acts : List Hearing) (l : Listeners),
    Runs start acts l → l.Idle → Tells xs (told acts) →
      (l.traffic.ended.map timeless).Perm (xs.map Exchange.record) := by
  intro h
  obtain ⟨l, runs, idle⟩ := runs_responseLast
  have hperm := h [answered] responseLast l runs idle tells_responseLast
  rw [runs.traffic] at hperm
  exact absurd hperm (by decide)

end Listeners
end Rehearsal.DevTools
