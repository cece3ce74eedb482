import Rehearsal.Proofs.Listeners
import Rehearsal.Run.World

/-! # Where records come from

Whatever the listeners hear, in whatever order, and whenever what has ended is taken away: every record
is that of one request, from the notice that it was sent to the first after it by which it ended, with no
other notice that a request with this identifier was sent or ended in between. Its status is the one that
was last told of it meanwhile. No two records share a notice, and every such passage has left its record.
-/
namespace Rehearsal.DevTools

/-- Listeners, and what was taken so far of what they put together. -/
structure Collection where
  listeners : Listeners
  taken : List NetworkRequest

inductive Collecting where
  | listening (h : Hearing)
  | taking

def hearings : List Collecting → List Hearing :=
  List.filterMap fun
    | .listening h => some h
    | .taking => none

namespace Collection

def start : Collection := ⟨.start, []⟩

/-- What was taken, and what may still be taken. -/
def records (c : Collection) : List NetworkRequest := c.taken ++ c.listeners.traffic.ended

inductive Does : Collection → Collecting → Collection → Prop
  | listening {l l' : Listeners} {taken : List NetworkRequest} {h : Hearing} (does : l.Does h l') :
    Does ⟨l, taken⟩ (.listening h) ⟨l', taken⟩
  | taking {π : Type} {queue : Notice.Kind → List Notice} {s s' : World (Tab π)} {w : Watch} {c c' : Clock}
    {taken rs : List NetworkRequest} (takes : Tab.takeRequests.run w c s = (.done rs, c', s')) :
    Does ⟨⟨queue, s.page.traffic⟩, taken⟩ .taking ⟨⟨queue, s'.page.traffic⟩, taken ++ rs⟩

inductive Runs : Collection → List Collecting → Collection → Prop
  | nil (c : Collection) : Runs c [] c
  | cons {c c' c'' : Collection} {act : Collecting} {acts : List Collecting} (first : Does c act c')
    (rest : Runs c' acts c'') : Runs c (act :: acts) c''

/-- The records can be taken at any moment. -/
theorem does_taking (queue : Notice.Kind → List Notice) (t : Traffic) (taken : List NetworkRequest) :
    Does ⟨⟨queue, t⟩, taken⟩ .taking ⟨⟨queue, { t with ended := [] }⟩, taken ++ t.ended⟩ :=
  .taking (s := .ofPage ⟨(), t, true⟩ (.ofDisk ⟨[], []⟩)) (w := .none) (c := ⟨0, false, none⟩) rfl

end Collection

/-! ## Taking away -/

theorem Traffic.pending_hear_congr {t u : Traffic} (h : t.pending = u.pending) (now : Nat) (n : Notice) :
    (t.hear now n).pending = (u.hear now n).pending := by
  cases n with
  | sent id url method => simp only [hear, h]
  | response id status => simp only [hear, h]
  | finished id length => simp only [hear, pending_complete, h]
  | failed id reason => simp only [hear, pending_complete, h]

theorem run_takeRequests {π : Type} {w : Watch} {c c' : Clock} {s s' : World (Tab π)}
    {rs : List NetworkRequest} (takes : Tab.takeRequests.run w c s = (.done rs, c', s')) :
    rs = s.page.traffic.ended ∧
      s' = { s with page := { s.page with traffic := { s.page.traffic with ended := [] } } } := by
  cases takes
  exact ⟨rfl, rfl⟩

/-- The listeners without the taking: they would hold all the records. -/
structure Untaken (c : Collection) (l : Listeners) : Prop where
  queue : l.queue = c.listeners.queue
  pending : l.traffic.pending = c.listeners.traffic.pending
  ended : l.traffic.ended = c.records

namespace Untaken

variable {c c' : Collection} {l : Listeners}

theorem does {act : Collecting} (h : Untaken c l) (does : c.Does act c') :
    ∃ l', l.Runs (hearings [act]) l' ∧ Untaken c' l' := by
  obtain ⟨queue, ⟨pending, ended⟩⟩ := l
  obtain ⟨rfl, rfl, rfl⟩ := h
  cases does with
  | @listening own own' taken hearing does =>
    cases does with
    | tells => exact ⟨_, .cons .tells (.nil _), rfl, rfl, rfl⟩
    | @hears n rest now next =>
      have hpending := Traffic.pending_hear_congr (t := ⟨own.traffic.pending, taken ++ own.traffic.ended⟩)
        (u := own.traffic) rfl now n
      refine ⟨_, .cons (.hears next) (.nil _), rfl, hpending, ?_⟩
      simp only [Collection.records, Traffic.ended_hear, List.append_assoc]
      rfl
  | @taking π queue s s' w now now' taken rs takes =>
    obtain ⟨rfl, rfl⟩ := run_takeRequests takes
    exact ⟨_, .nil _, rfl, rfl, (List.append_nil _).symm⟩

theorem runs {acts : List Collecting} (h : Untaken c l) (runs : c.Runs acts c') :
    ∃ l', l.Runs (hearings acts) l' ∧ Untaken c' l' := by
  induction runs generalizing l with
  | nil c => exact ⟨l, .nil l, h⟩
  | @cons c₁ c₂ c₃ act acts first rest ih =>
    obtain ⟨l₁, hfirst, h₁⟩ := h.does first
    obtain ⟨l₂, hrest, h₂⟩ := ih h₁
    refine ⟨l₂, ?_, h₂⟩
    cases act with
    | listening hearing =>
      obtain _ | ⟨does, ⟨⟩⟩ := hfirst
      exact .cons does hrest
    | taking =>
      cases hfirst
      exact hrest

end Untaken

/-! ## Requests under way -/

/-- The notice ends a request, with a size and perhaps an error. -/
inductive Notice.Ends : Notice → String → Nat → Option String → Prop
  | finished (id : String) (length : Decimal.Binary64) :
    Ends (.finished id length) id (Traffic.sizeOf length) none
  | failed (id reason : String) : Ends (.failed id reason) id 0 (some reason)

/-- Between two positions the last notice about a request is a response with this status. -/
def Answered (hs : List (Nat × Notice)) (begun upTo : Nat) (id : String) (status : Nat) : Prop :=
  ∃ k now told, begun < k ∧ k < upTo ∧ hs[k]? = some (now, .response id told) ∧
    Traffic.status? told = some status ∧
    ∀ j h, k < j → j < upTo → hs[j]? = some h → h.2.request ≠ id

/-- Before a position a request is under way that was sent with the notice at another. -/
structure UnderWay (hs : List (Nat × Notice)) (upTo begun : Nat) (p : PendingRequest) : Prop where
  before : begun < upTo
  sent : hs[begun]? = some (p.sentAt, .sent p.id p.url p.method)
  alone : ∀ k h, begun < k → k < upTo → hs[k]? = some h → h.2.request = p.id → h.2.kind = .response
  answered : ∀ status, p.status = some status ↔ Answered hs begun upTo p.id status

section

variable {hs hs' : List (Nat × Notice)} {begun begun' upTo : Nat} {p p' : PendingRequest} {id : String}
  {now : Nat} {n : Notice}

/-- What comes later does not matter. -/
theorem Answered.congr {status : Nat} (same : ∀ k < upTo, hs[k]? = hs'[k]?)
    (h : Answered hs begun upTo id status) : Answered hs' begun upTo id status := by
  obtain ⟨k, now, told, hbegun, hupTo, hk, hstatus, last⟩ := h
  refine ⟨k, now, told, hbegun, hupTo, same k hupTo ▸ hk, hstatus, fun j h hj hjupTo hget => ?_⟩
  exact last j h hj hjupTo (same j hjupTo ▸ hget)

theorem UnderWay.congr (same : ∀ k < upTo, hs[k]? = hs'[k]?) (h : UnderWay hs upTo begun p) :
    UnderWay hs' upTo begun p where
  before := h.before
  sent := same begun h.before ▸ h.sent
  alone k n hk hupTo hget := h.alone k n hk hupTo (same k hupTo ▸ hget)
  answered status := (h.answered status).trans ⟨.congr same, .congr fun k hk => (same k hk).symm⟩

/-- What stands in a history with one more notice stood there before, or is this notice. -/
theorem getElem?_concat_cases {k : Nat} {last h : Nat × Notice} (hget : (hs ++ [last])[k]? = some h) :
    k < hs.length ∧ hs[k]? = some h ∨ k = hs.length ∧ h = last := by
  rcases lt_trichotomy k hs.length with hlt | rfl | hgt
  · exact .inl ⟨hlt, List.getElem?_append_left hlt ▸ hget⟩
  · rw [List.getElem?_concat_length] at hget
    exact .inr ⟨rfl, (Option.some.inj hget).symm⟩
  · have hlength := (List.getElem?_eq_some_iff.mp hget).1
    rw [List.length_append, List.length_singleton] at hlength
    omega

theorem underWay_append_iff (h : upTo ≤ hs.length) (more : List (Nat × Notice)) :
    UnderWay (hs ++ more) upTo begun p ↔ UnderWay hs upTo begun p := by
  have same : ∀ k < upTo, (hs ++ more)[k]? = hs[k]? := fun k hk =>
    List.getElem?_append_left (by omega)
  exact ⟨.congr same, .congr fun k hk => (same k hk).symm⟩

/-- Of the requests with one identifier at most one is under way. -/
theorem UnderWay.unique (h : UnderWay hs upTo begun p) (h' : UnderWay hs upTo begun' p')
    (same : p.id = p'.id) : begun = begun' ∧ p = p' := by
  have hlt : ∀ {b b' : Nat} {q q' : PendingRequest}, UnderWay hs upTo b q → UnderWay hs upTo b' q' →
      q.id = q'.id → ¬ b < b' := by
    intro b b' q q' hq hq' hid hb
    cases hq.alone b' _ hb hq'.before hq'.sent hid.symm
  obtain rfl : begun = begun' :=
    le_antisymm (not_lt.mp (hlt h' h same.symm)) (not_lt.mp (hlt h h' same))
  have hsent := Option.some.inj (h.sent.symm.trans h'.sent)
  have hstatus : p.status = p'.status := by
    apply Option.ext
    intro status
    rw [h.answered, h'.answered, same]
  obtain ⟨id, url, method, status, sentAt⟩ := p
  obtain ⟨id', url', method', status', sentAt'⟩ := p'
  cases hsent
  cases hstatus
  exact ⟨rfl, rfl⟩

theorem Answered.unique {status status' : Nat} (h : Answered hs begun upTo id status)
    (h' : Answered hs begun upTo id status') : status = status' := by
  obtain ⟨k, now, told, -, hk, hget, hstatus, last⟩ := h
  obtain ⟨k', now', told', -, hk', hget', hstatus', last'⟩ := h'
  obtain rfl : k = k' := le_antisymm
    (not_lt.mp fun hlt => last' k _ hlt hk hget rfl) (not_lt.mp fun hlt => last k' _ hlt hk' hget' rfl)
  rw [hget] at hget'
  cases hget'
  exact Option.some.inj (hstatus.symm.trans hstatus')

theorem exists_answer (hs : List (Nat × Notice)) (begun upTo : Nat) (id : String) :
    ∃ answer : Option Nat, ∀ status, answer = some status ↔ Answered hs begun upTo id status := by
  by_cases h : ∃ status, Answered hs begun upTo id status
  · obtain ⟨answer, hanswer⟩ := h
    refine ⟨some answer, fun status => ⟨?_, fun h => congrArg some (hanswer.unique h)⟩⟩
    rintro ⟨⟩
    exact hanswer
  · exact ⟨none, fun status => ⟨nofun, fun hstatus => absurd ⟨status, hstatus⟩ h⟩⟩

/-! ## One more notice -/

theorem answered_concat_of_ne {status : Nat} (hne : n.request ≠ id) :
    Answered (hs ++ [(now, n)]) begun (hs.length + 1) id status ↔
      Answered hs begun hs.length id status := by
  constructor
  · rintro ⟨k, moment, told, hbegun, hk, hget, hstatus, last⟩
    rcases getElem?_concat_cases hget with ⟨hlt, hget⟩ | ⟨-, ⟨⟩⟩
    · refine ⟨k, moment, told, hbegun, hlt, hget, hstatus, fun j h hj hjlt hjget => ?_⟩
      exact last j h hj (by omega) (by rwa [List.getElem?_append_left hjlt])
    · exact absurd rfl hne
  · rintro ⟨k, moment, told, hbegun, hk, hget, hstatus, last⟩
    refine ⟨k, moment, told, hbegun, by omega, by rwa [List.getElem?_append_left hk], hstatus,
      fun j h hj hjlt hjget => ?_⟩
    rcases getElem?_concat_cases hjget with ⟨hlt, hjget⟩ | ⟨-, rfl⟩
    · exact last j h hj hlt hjget
    · exact hne

theorem answered_concat_response {status : Nat} {told : Int} (hbegun : begun < hs.length) :
    Answered (hs ++ [(now, .response id told)]) begun (hs.length + 1) id status ↔
      Traffic.status? told = some status := by
  constructor
  · rintro ⟨k, moment, told', -, hk, hget, hstatus, last⟩
    -- Nothing comes after the last position, and what comes before it is not the last that was told.
    obtain rfl : k = hs.length := by
      by_contra hne
      exact last hs.length _ (by omega) (by omega) List.getElem?_concat_length rfl
    rw [List.getElem?_concat_length] at hget
    cases hget
    exact hstatus
  · intro hstatus
    exact ⟨hs.length, now, told, hbegun, by omega, List.getElem?_concat_length, hstatus,
      fun j h hj hjlt _ => by omega⟩

/-- A notice about another request leaves the request under way. -/
theorem underWay_concat_of_ne (hne : n.request ≠ p.id) :
    UnderWay (hs ++ [(now, n)]) (hs.length + 1) begun p ↔ UnderWay hs hs.length begun p := by
  constructor
  · intro h
    rcases getElem?_concat_cases h.sent with ⟨hbefore, hsent⟩ | ⟨-, ⟨⟩⟩
    · refine ⟨hbefore, hsent, fun k h' hk hlt hget => ?_, fun status => ?_⟩
      · exact h.alone k h' hk (by omega) (by rwa [List.getElem?_append_left hlt])
      · rw [h.answered, answered_concat_of_ne hne]
    · exact absurd rfl hne
  · intro h
    refine ⟨Nat.lt_succ_of_lt h.before, ?_, fun k h' hk hlt hget hid => ?_, fun status => ?_⟩
    · rw [List.getElem?_append_left h.before, h.sent]
    · rcases getElem?_concat_cases hget with ⟨hlast, hget⟩ | ⟨-, rfl⟩
      · exact h.alone k h' hk hlast hget hid
      · exact absurd hid hne
    · rw [h.answered, answered_concat_of_ne hne]

theorem underWay_concat_sent {id url method : String} (hid : p.id = id) :
    UnderWay (hs ++ [(now, .sent id url method)]) (hs.length + 1) begun p ↔
      begun = hs.length ∧ p = ⟨id, url, method, none, now⟩ := by
  have hanswer (status : Nat) :
      ¬ Answered (hs ++ [(now, .sent id url method)]) hs.length (hs.length + 1) id status := by
    rintro ⟨k, -, -, hbegun, hk, -⟩
    omega
  constructor
  · intro h
    obtain rfl : begun = hs.length := by
      by_contra hne
      have hbefore := h.before
      cases h.alone hs.length _ (by omega) (by omega) List.getElem?_concat_length hid.symm
    have hsent := h.sent
    rw [List.getElem?_concat_length] at hsent
    have hstatus : p.status = none := by
      rw [Option.eq_none_iff_forall_ne_some]
      intro status hstatus
      rw [h.answered, hid] at hstatus
      exact hanswer status hstatus
    obtain ⟨pid, purl, pmethod, pstatus, psentAt⟩ := p
    cases hsent
    cases hstatus
    exact ⟨rfl, rfl⟩
  · rintro ⟨rfl, rfl⟩
    refine ⟨by omega, List.getElem?_concat_length, fun k h hk hlt => by omega, fun status => ?_⟩
    exact ⟨nofun, fun h => absurd h (hanswer status)⟩

theorem underWay_concat_response {told : Int} (hid : p.id = id) :
    UnderWay (hs ++ [(now, .response id told)]) (hs.length + 1) begun p ↔
      ∃ q, UnderWay hs hs.length begun q ∧ q.id = id ∧ p = { q with status := Traffic.status? told } := by
  subst hid
  constructor
  · intro h
    obtain ⟨hbefore, hsent⟩ | ⟨-, ⟨⟩⟩ := getElem?_concat_cases h.sent
    obtain ⟨answer, hanswer⟩ := exists_answer hs begun hs.length p.id
    refine ⟨{ p with status := answer }, ⟨hbefore, hsent, fun k h' hk hlt hget => ?_, hanswer⟩, rfl, ?_⟩
    · exact h.alone k h' hk (by omega) (by rwa [List.getElem?_append_left hlt])
    · have hstatus : p.status = Traffic.status? told := by
        apply Option.ext
        intro status
        rw [h.answered, answered_concat_response hbefore]
      rw [← hstatus]
  · rintro ⟨q, h, hid, rfl⟩
    refine ⟨Nat.lt_succ_of_lt h.before, ?_, fun k h' hk hlt hget hkid => ?_, fun status => ?_⟩
    · rw [List.getElem?_append_left h.before, h.sent]
    · rcases getElem?_concat_cases hget with ⟨hlast, hget⟩ | ⟨-, rfl⟩
      · exact h.alone k h' hk hlast hget hkid
      · rfl
    · exact (answered_concat_response h.before).symm

theorem not_underWay_concat_of_ends {size : Nat} {error : Option String} (h : n.Ends p.id size error) :
    ¬ UnderWay (hs ++ [(now, n)]) (hs.length + 1) begun p := by
  intro under
  rcases getElem?_concat_cases under.sent with ⟨hbefore, -⟩ | ⟨-, ⟨⟩⟩
  · have hkind := under.alone hs.length (now, n) hbefore (by omega) List.getElem?_concat_length
    cases h with
    | finished id length => cases hkind rfl
    | failed id reason => cases hkind rfl
  · cases h

end

/-! ## What is pending -/

namespace Traffic

variable {t : Traffic} {now : Nat} {p : PendingRequest}

theorem mem_pending_iff_pendingOf {id : String} (h : p.id = id) : p ∈ t.pending ↔ p ∈ t.pendingOf id := by
  simp [pendingOf, h]

/-- A request that has just ended is neither pending nor under way. -/
theorem mem_pending_iff_of_ends {hs : List (Nat × Notice)} {n : Notice} {size : Nat} {error : Option String}
    (h : n.Ends p.id size error) :
    p ∈ (t.hear now n).pending ↔ ∃ begun, UnderWay (hs ++ [(now, n)]) (hs.length + 1) begun p := by
  have hgone : p ∉ (t.hear now n).pending := by
    cases h <;> simp [hear, pending_complete]
  exact iff_of_false hgone (not_exists.mpr fun begun => not_underWay_concat_of_ends h)

theorem mem_pending_response {id : String} (hid : p.id = id) (now : Nat) (told : Int) :
    p ∈ (t.hear now (.response id told)).pending ↔
      ∃ q ∈ t.pending, q.id = id ∧ p = { q with status := status? told } := by
  simp only [hear, List.mem_map]
  constructor
  · rintro ⟨q, hq, rfl⟩
    by_cases hqid : q.id = id
    · exact ⟨q, hq, hqid, by rw [if_pos hqid]⟩
    · rw [if_neg hqid] at hid
      exact absurd hid hqid
  · rintro ⟨q, hq, hqid, rfl⟩
    exact ⟨q, hq, if_pos hqid⟩

/-- The requests that are pending are those under way. -/
theorem mem_pending_iff (hs : List (Nat × Notice)) (p : PendingRequest) :
    p ∈ (empty.hearAll hs).pending ↔ ∃ begun, UnderWay hs hs.length begun p := by
  induction hs using List.reverseRecOn generalizing p with
  | nil =>
    constructor
    · intro h
      cases h
    · rintro ⟨begun, h⟩
      cases h.before
  | append_singleton hs h ih =>
    obtain ⟨now, n⟩ := h
    rw [hearAll_concat, List.length_append, List.length_singleton]
    by_cases hid : n.request = p.id
    · cases n with
      | sent id url method =>
        obtain rfl : p.id = id := hid.symm
        simp only [underWay_concat_sent rfl, exists_eq_left]
        simp [hear]
      | response id told =>
        have hpid : p.id = id := hid.symm
        simp only [mem_pending_response hpid, underWay_concat_response hpid]
        constructor
        · rintro ⟨q, hq, hqid, rfl⟩
          obtain ⟨begun, hbegun⟩ := (ih q).mp hq
          exact ⟨begun, q, hbegun, hqid, rfl⟩
        · rintro ⟨begun, q, hbegun, hqid, rfl⟩
          exact ⟨q, (ih q).mpr ⟨begun, hbegun⟩, hqid, rfl⟩
      | finished id length =>
        obtain rfl : id = p.id := hid
        exact mem_pending_iff_of_ends (.finished p.id length)
      | failed id reason =>
        obtain rfl : id = p.id := hid
        exact mem_pending_iff_of_ends (.failed p.id reason)
    · rw [mem_pending_iff_pendingOf rfl, pendingOf_hear_of_ne hid, ← mem_pending_iff_pendingOf rfl, ih]
      simp only [underWay_concat_of_ne hid]

end Traffic

/-! ## What is recorded -/

theorem Notice.Ends.request {n : Notice} {id : String} {size : Nat} {error : Option String}
    (h : n.Ends id size error) : n.request = id := by
  cases h <;> rfl

/-- The error is the reason of a failure. -/
theorem Notice.Ends.isSome_error {n : Notice} {id : String} {size : Nat} {error : Option String}
    (h : n.Ends id size error) : error.isSome ↔ n.kind = .failed := by
  cases h <;> simp [Notice.kind]

/-- The record of a request that ends now. -/
def PendingRequest.ended (p : PendingRequest) (now size : Nat) (error : Option String) : NetworkRequest :=
  ⟨p.url, p.method, p.status, now - p.sentAt, size, error⟩

theorem Traffic.gain_of_ends (t : Traffic) (now : Nat) {n : Notice} {id : String} {size : Nat}
    {error : Option String} (h : n.Ends id size error) :
    t.gain now n = (t.pending.find? (·.id == id)).toList.map fun p => p.ended now size error := by
  cases h <;> rfl

theorem Traffic.gain_eq_nil (t : Traffic) (now : Nat) {n : Notice}
    (h : ∀ id size error, ¬ n.Ends id size error) : t.gain now n = [] := by
  cases n with
  | sent id url method => rfl
  | response id told => rfl
  | finished id length => exact absurd (.finished id length) (h id _ _)
  | failed id reason => exact absurd (.failed id reason) (h id _ _)

/-- A notice ends a request that is pending, or it leaves no record. -/
theorem Traffic.gain_cases (t : Traffic) (now : Nat) (n : Notice) :
    (∃ p ∈ t.pending, ∃ size error, n.Ends p.id size error ∧ t.gain now n = [p.ended now size error]) ∨
      t.gain now n = [] ∧ ∀ p ∈ t.pending, ∀ size error, ¬ n.Ends p.id size error := by
  by_cases hends : ∃ id size error, n.Ends id size error
  · obtain ⟨id, size, error, hn⟩ := hends
    have hgain := t.gain_of_ends now hn
    cases hfind : t.pending.find? (·.id == id) with
    | some p =>
      obtain rfl : p.id = id := by simpa using List.find?_some hfind
      exact .inl ⟨p, List.mem_of_find?_eq_some hfind, size, error, hn, by rw [hgain, hfind]; rfl⟩
    | none =>
      refine .inr ⟨by rw [hgain, hfind]; rfl, fun p hp size' error' h => ?_⟩
      have hid : p.id = id := h.request.symm.trans hn.request
      simpa [hid] using List.find?_eq_none.mp hfind p hp
  · simp only [not_exists] at hends
    exact .inr ⟨t.gain_eq_nil now hends, fun p _ => hends p.id⟩

/-- A request from the notice that it was sent to the one by which it ended. -/
structure Passage where
  id : String
  begun : Nat
  sentAt : Nat
  closed : Nat
  closedAt : Nat
  last : Notice

/-- The record is that of the passage. -/
structure Recorded (hs : List (Nat × Notice)) (x : Passage) (r : NetworkRequest) : Prop where
  underWay : UnderWay hs x.closed x.begun ⟨x.id, r.url, r.method, r.status, x.sentAt⟩
  closed : hs[x.closed]? = some (x.closedAt, x.last)
  ends : x.last.Ends x.id r.responseSize r.error
  duration : r.durationMs = x.closedAt - x.sentAt

section

variable {hs : List (Nat × Notice)} {x y : Passage} {r : NetworkRequest} {now : Nat} {n : Notice}

theorem Recorded.closed_lt (h : Recorded hs x r) : x.closed < hs.length :=
  (List.getElem?_eq_some_iff.mp h.closed).1

theorem recorded_of_mem {xs : List Passage} {rs : List NetworkRequest} (h : List.Forall₂ (Recorded hs) xs rs)
    (hx : x ∈ xs) : ∃ r, Recorded hs x r := by
  have hboth : List.Forall₂ (fun x r => (∃ r, Recorded hs x r) ∧ Recorded hs x r) xs rs :=
    h.imp fun x r h => ⟨⟨r, h⟩, h⟩
  exact ((List.forall₂_and_left xs rs).mp hboth).1 x hx

theorem recorded_concat_of_lt (hlt : x.closed < hs.length) :
    Recorded (hs ++ [(now, n)]) x r ↔ Recorded hs x r := by
  have hunder {p : PendingRequest} : UnderWay (hs ++ [(now, n)]) x.closed x.begun p ↔ _ :=
    underWay_append_iff hlt.le [(now, n)]
  constructor
  · intro h
    exact ⟨hunder.mp h.underWay, List.getElem?_append_left hlt ▸ h.closed, h.ends, h.duration⟩
  · intro h
    exact ⟨hunder.mpr h.underWay, (List.getElem?_append_left hlt).trans h.closed, h.ends, h.duration⟩

theorem recorded_concat {p : PendingRequest} {begun size : Nat} {error : Option String}
    (under : UnderWay hs hs.length begun p) (ends : n.Ends p.id size error) :
    Recorded (hs ++ [(now, n)]) ⟨p.id, begun, p.sentAt, hs.length, now, n⟩ (p.ended now size error) where
  underWay := (underWay_append_iff le_rfl _).mpr under
  closed := List.getElem?_concat_length
  ends := ends
  duration := rfl

/-- What ends with the last notice was under way before it. -/
theorem Recorded.underWay_of_concat (h : Recorded (hs ++ [(now, n)]) x r) (hlast : x.closed = hs.length) :
    UnderWay hs hs.length x.begun ⟨x.id, r.url, r.method, r.status, x.sentAt⟩ ∧
      x.closedAt = now ∧ x.last = n := by
  have hclosed := h.closed
  rw [hlast, List.getElem?_concat_length] at hclosed
  cases hclosed
  exact ⟨(underWay_append_iff le_rfl _).mp (hlast ▸ h.underWay), rfl, rfl⟩

/-- No request is ended twice. -/
theorem Recorded.begun_ne {s : NetworkRequest} (hx : Recorded hs x r) (hy : Recorded hs y s)
    (hlt : x.closed < y.closed) : x.begun ≠ y.begun := by
  intro heq
  have hsent := hx.underWay.sent
  rw [heq, hy.underWay.sent] at hsent
  have hid : x.id = y.id := by
    injection hsent with hsent
    injection hsent with _ hsent
    injection hsent with hid
    exact hid.symm
  have hkind := hy.underWay.alone x.closed _ (heq ▸ hx.underWay.before) hlt hx.closed
    (hx.ends.request.trans hid)
  cases hlast : x.last with
  | sent | response =>
    have hends := hx.ends
    rw [hlast] at hends
    cases hends
  | finished | failed =>
    rw [hlast] at hkind
    cases hkind

/-- What the notices that were heard leave on record, in the order of the ends. -/
theorem recorded_hearAll (hs : List (Nat × Notice)) :
    ∃ xs : List Passage, List.Forall₂ (Recorded hs) xs (Traffic.empty.hearAll hs).ended ∧
      (xs.map Passage.closed).Pairwise (· < ·) ∧ ∀ x r, Recorded hs x r → x ∈ xs := by
  induction hs using List.reverseRecOn with
  | nil => exact ⟨[], .nil, .nil, fun x r h => absurd h.closed_lt (Nat.not_lt_zero _)⟩
  | append_singleton hs h ih =>
    obtain ⟨now, n⟩ := h
    obtain ⟨xs, hxs, hclosed, hall⟩ := ih
    have hold : List.Forall₂ (Recorded (hs ++ [(now, n)])) xs (Traffic.empty.hearAll hs).ended :=
      hxs.imp fun x r h => (recorded_concat_of_lt h.closed_lt).mpr h
    have hshorter : ∀ x r, Recorded (hs ++ [(now, n)]) x r → x ∈ xs ∨ x.closed = hs.length := by
      intro x r h
      have hlt := h.closed_lt
      rw [List.length_append, List.length_singleton] at hlt
      rcases Nat.lt_succ_iff_lt_or_eq.mp hlt with hlt | heq
      · exact .inl (hall x r ((recorded_concat_of_lt hlt).mp h))
      · exact .inr heq
    rw [Traffic.hearAll_concat, Traffic.ended_hear]
    rcases (Traffic.empty.hearAll hs).gain_cases now n with ⟨p, hp, size, error, hends, hgain⟩ | ⟨hgain, hnone⟩
    · obtain ⟨begun, hunder⟩ := (Traffic.mem_pending_iff hs p).mp hp
      rw [hgain]
      refine ⟨xs ++ [⟨p.id, begun, p.sentAt, hs.length, now, n⟩], ?_, ?_, fun x r h => ?_⟩
      · exact List.rel_append hold (.cons (recorded_concat hunder hends) .nil)
      · rw [List.map_append, List.map_singleton, List.pairwise_append]
        refine ⟨hclosed, List.pairwise_singleton _ _, fun k hk last hlast => ?_⟩
        obtain ⟨x, hx, rfl⟩ := List.mem_map.mp hk
        obtain ⟨r, hr⟩ := recorded_of_mem hxs hx
        rw [List.mem_singleton.mp hlast]
        exact hr.closed_lt
      · rcases hshorter x r h with hmem | hlast
        · exact List.mem_append_left _ hmem
        · obtain ⟨hxunder, hclosedAt, hxlast⟩ := h.underWay_of_concat hlast
          have hid : p.id = x.id := hends.request.symm.trans (hxlast ▸ h.ends.request)
          obtain ⟨rfl, rfl⟩ := hunder.unique hxunder hid
          obtain ⟨id, begun, sentAt, closed, closedAt, last⟩ := x
          cases hlast
          cases hclosedAt
          cases hxlast
          exact List.mem_append_right _ (List.mem_singleton_self _)
    · rw [hgain, List.append_nil]
      refine ⟨xs, hold, hclosed, fun x r h => (hshorter x r h).resolve_right fun hlast => ?_⟩
      obtain ⟨hunder, -, hxlast⟩ := h.underWay_of_concat hlast
      exact hnone _ ((Traffic.mem_pending_iff hs _).mpr ⟨x.begun, hunder⟩) _ _ (hxlast ▸ h.ends)

/-- Passages that end one after the other were begun by different notices. -/
theorem begun_nodup {xs : List Passage} (hxs : ∀ x ∈ xs, ∃ r, Recorded hs x r)
    (hclosed : (xs.map Passage.closed).Pairwise (· < ·)) : (xs.map Passage.begun).Nodup := by
  rw [List.pairwise_map] at hclosed
  rw [List.Nodup, List.pairwise_map]
  refine hclosed.imp_of_mem fun {x y} hx hy hlt => ?_
  obtain ⟨r, hr⟩ := hxs x hx
  obtain ⟨s, hs⟩ := hxs y hy
  exact hr.begun_ne hs hlt

end

/-- Whatever the listeners hear and whenever the records are taken: what was taken and what may still be
taken are the records of the passages, each request that was sent having at most one and each end closing
at most one. What was heard of each kind is what was told first. -/
theorem requests_recorded {acts : List Collecting} {c : Collection} (runs : Collection.start.Runs acts c) :
    (∀ kind : Notice.Kind, ((heard (hearings acts)).map Prod.snd).filter (·.kind = kind) <+:
      (told (hearings acts)).filter (·.kind = kind)) ∧
    ∃ xs : List Passage,
      List.Forall₂ (fun x r => Recorded (heard (hearings acts)) x r ∧
        (r.error.isSome ↔ x.last.kind = .failed)) xs c.records ∧
      (xs.map Passage.closed).Pairwise (· < ·) ∧ (xs.map Passage.begun).Nodup ∧
      ∀ x r, Recorded (heard (hearings acts)) x r → x ∈ xs := by
  obtain ⟨l, hl, untaken⟩ := Untaken.runs (c := .start) (l := .start) ⟨rfl, rfl, rfl⟩ runs
  refine ⟨fun kind => ?_, ?_⟩
  · exact ⟨l.queue kind, (hl.queues kind).symm⟩
  · obtain ⟨xs, hxs, hclosed, hall⟩ := recorded_hearAll (heard (hearings acts))
    have hrecords : (Traffic.empty.hearAll (heard (hearings acts))).ended = c.records := by
      rw [← untaken.ended, hl.traffic]
      rfl
    rw [hrecords] at hxs
    refine ⟨xs, hxs.imp fun x r h => ⟨h, h.ends.isSome_error⟩, hclosed, ?_, hall⟩
    exact begun_nodup (fun x hx => recorded_of_mem hxs hx) hclosed

/-- A request is sent twice with one identifier, as on a redirect; it is answered and ends twice, with the
records taken in between; and a request fails that was never sent. -/
def redirected : List Collecting :=
  let told : List Notice := [.sent "1" "https://n.test/" "GET", .sent "1" "https://n.test/home" "GET",
    .response "1" 200, .finished "1" ⟨false, 512, 0⟩, .failed "1" "aborted", .failed "2" "aborted"]
  told.map (.listening ∘ .tells) ++
    [.listening (.hears 0 (.sent "1" "https://n.test/" "GET")),
      .listening (.hears 10 (.sent "1" "https://n.test/home" "GET")),
      .listening (.hears 15 (.response "1" 200)),
      .listening (.hears 20 (.finished "1" ⟨false, 512, 0⟩)), .taking,
      .listening (.hears 30 (.failed "1" "aborted")), .listening (.hears 30 (.failed "2" "aborted"))]

theorem requests_recorded_redirected : ∃ c, Collection.start.Runs redirected c ∧
    c.records = [⟨"https://n.test/home", "GET", some 200, 10, 512, none⟩] ∧
    ∃ x, Recorded (heard (hearings redirected)) x ⟨"https://n.test/home", "GET", some 200, 10, 512, none⟩ ∧
      ∀ y r, Recorded (heard (hearings redirected)) y r → y = x := by
  have tells {l : Listeners} {n : Notice} {taken : List NetworkRequest} :
      Collection.Does ⟨l, taken⟩ (.listening (.tells n)) _ := .listening .tells
  have hears {l : Listeners} {n : Notice} {rest : List Notice} {now : Nat} {taken : List NetworkRequest}
      (next : l.queue n.kind = n :: rest) : Collection.Does ⟨l, taken⟩ (.listening (.hears now n)) _ :=
    .listening (.hears next)
  have runs : ∃ c, Collection.start.Runs redirected c ∧
      c.records = [⟨"https://n.test/home", "GET", some 200, 10, 512, none⟩] := by
    refine ⟨_, .cons tells (.cons tells (.cons tells (.cons tells (.cons tells (.cons tells
      (.cons (hears rfl) (.cons (hears rfl) (.cons (hears rfl) (.cons (hears rfl)
      (.cons (Collection.does_taking ..) (.cons (hears rfl) (.cons (hears rfl) (.nil _))))))))))))), ?_⟩
    rfl
  obtain ⟨c, hc, hrecords⟩ := runs
  obtain ⟨-, xs, hxs, -, -, hall⟩ := requests_recorded hc
  rw [hrecords] at hxs
  obtain _ | ⟨⟨hx, -⟩, _ | _⟩ := hxs
  exact ⟨c, hc, hrecords, _, hx, fun y r hy => List.mem_singleton.mp (hall y r hy)⟩

end Rehearsal.DevTools
