import Rehearsal.Proofs.ReadBack
import Rehearsal.Proofs.StepGrammar
import Rehearsal.Proofs.StorageRestored

/-! # Pages that grant what they are asked

On a page that refuses no command and on which no script fails, a snapshot is taken and a session
restored without fail. What the browser lists of its cookies tells no address, and so does what is set
again of them: on a page of the web they can all be set.
-/
namespace Rehearsal

open StepDocument (bind_eq_ok_iff)

/-! ## Cookies without an address -/

namespace Json

variable {ms : List (String × Value)}

theorem Value.mem_insertMember {α : Type} {k : String} {v : α} {ms : List (String × α)} {m : String × α}
    (h : m ∈ insertMember k v ms) : m = (k, v) ∨ m ∈ ms := by
  induction ms with
  | nil => exact .inl (List.mem_singleton.mp h)
  | cons head rest ih =>
    unfold insertMember at h
    split_ifs at h
    · exact (List.mem_cons.mp h).imp_right (List.mem_cons_of_mem _)
    · exact List.mem_cons.mp h
    · rcases List.mem_cons.mp h with rfl | h
      · exact .inr List.mem_cons_self
      · exact (ih h).imp_right (List.mem_cons_of_mem _)

theorem Value.mem_sortedMembers {α : Type} {ms : List (String × α)} {m : String × α}
    (h : m ∈ sortedMembers ms) : m ∈ ms := by
  induction ms using List.reverseRecOn with
  | nil => exact h
  | append_singleton ms last ih =>
    rw [sortedMembers, List.foldl_concat] at h
    rcases mem_insertMember h with rfl | h
    · exact List.mem_append_right _ (List.mem_singleton_self _)
    · exact List.mem_append_left _ (ih h)

theorem Members.mem_of_ofObject {fields : List String} {given : List (String × Tree)} {m : String × Tree}
    (h : ofObject fields (Value.toMembers ms) = .ok given) (hm : m ∈ given) :
    ∃ v, (m.1, v) ∈ ms := by
  induction ms generalizing given with
  | nil =>
    cases h
    cases hm
  | cons head rest ih =>
    obtain ⟨more, hmore, h⟩ := bind_eq_ok_iff.mp h
    have hrest : m ∈ more → ∃ v, (m.1, v) ∈ head :: rest := fun hm =>
      (ih hmore hm).imp fun v hv => List.mem_cons_of_mem _ hv
    split_ifs at h
    · cases h
      exact hrest hm
    · cases h
      rcases List.mem_cons.mp hm with rfl | hm
      · exact ⟨head.2, List.mem_cons_self⟩
      · exact hrest hm

/-- What is given for a record is among the members of the object. -/
theorem Members.mem_of_ofTree {fields : List String} {expected : String} {given : Members}
    {m : String × Tree} (h : ofTree fields expected (Value.object ms).toTree = .ok given)
    (hm : m ∈ given.given) : ∃ v, (m.1, v) ∈ ms := by
  rw [Value.toTree] at h
  obtain ⟨members, hobject, rfl⟩ := of_map_eq_ok h
  exact mem_of_ofObject hobject hm

end Json

namespace DevTools.Cookie

open Json (Value Members)

/-- A cookie as the browser lists it: an object that tells no address. -/
def Unaddressed (cookie : Value) : Prop :=
  ∃ members, cookie = .object members ∧ ∀ m ∈ members, m.1 ≠ "url"

theorem Unaddressed.text? {cookie : Value} (h : Unaddressed cookie) : text? cookie "url" = none := by
  obtain ⟨members, rfl, hnone⟩ := h
  have hlookup : members.lookup "url" = none := by
    rw [List.lookup_eq_none_iff]
    intro m hm
    simpa using (hnone m hm).symm
  rw [Cookie.text?, Value.get?, hlookup, Option.bind_none]

/-- A field is read of a member that was given. -/
theorem key_of_read {m : Members} {f : Field} {out : List (String × Value)} {x : String × Value}
    (h : f.read m = .ok out) (hx : x ∈ out) : x.1 = f.name ∧ ∃ t, (x.1, t) ∈ m.given := by
  have hread : x.1 = f.name ∧ m.given.lookup f.name ≠ none := by
    unfold Field.read at h
    split at h
    · obtain ⟨v, hv, ⟨⟩⟩ := bind_eq_ok_iff.mp h
      refine ⟨congrArg Prod.fst (List.mem_singleton.mp hx), fun hnone => ?_⟩
      rw [Members.required, hnone] at hv
      cases hv
    · obtain ⟨_ | v, hv, ⟨⟩⟩ := bind_eq_ok_iff.mp h
      · cases hx
      · refine ⟨congrArg Prod.fst (List.mem_singleton.mp hx), fun hnone => ?_⟩
        rw [Members.optional, Members.orElse, hnone] at hv
        cases hv
  obtain ⟨hname, hgiven⟩ := hread
  obtain ⟨t, ht⟩ := Option.ne_none_iff_exists'.mp hgiven
  obtain ⟨before, after, hm, -⟩ := List.lookup_eq_some_iff.mp ht
  exact ⟨hname, t, by simp [hname, hm]⟩

theorem key_of_readFields {m : Members} {fs : List Field} {out : List (String × Value)} {x : String × Value}
    (h : readFields m fs = .ok out) (hx : x ∈ out) : x.1 ∈ fs.map Field.name ∧ ∃ t, (x.1, t) ∈ m.given := by
  induction fs generalizing out with
  | nil =>
    cases h
    cases hx
  | cons f fs ih =>
    obtain ⟨here, hhere, h⟩ := bind_eq_ok_iff.mp h
    obtain ⟨rest, hrest, ⟨⟩⟩ := bind_eq_ok_iff.mp h
    rcases List.mem_append.mp hx with hx | hx
    · obtain ⟨hname, hgiven⟩ := key_of_read hhere hx
      exact ⟨hname ▸ List.mem_cons_self, hgiven⟩
    · exact (ih hrest hx).imp_left (List.mem_cons_of_mem _)

/-- A cookie that is read of an object has fields of the form, and none that the object has not. -/
theorem keys_of_read {form : List Field} {expected : String} {ms : List (String × Value)} {cookie : Value}
    (h : read form expected (Value.object ms).toTree = .ok cookie) :
    ∃ members, cookie = .object members ∧
      ∀ x ∈ members, x.1 ∈ form.map Field.name ∧ ∃ v, (x.1, v) ∈ ms := by
  obtain ⟨m, hm, h⟩ := bind_eq_ok_iff.mp h
  obtain ⟨out, hout, ⟨⟩⟩ := bind_eq_ok_iff.mp h
  refine ⟨_, rfl, fun x hx => ?_⟩
  obtain ⟨hname, t, ht⟩ := key_of_readFields hout (Value.mem_sortedMembers hx)
  exact ⟨hname, Members.mem_of_ofTree hm ht⟩

/-- A cookie that is set again tells no address that was not kept. -/
theorem Unaddressed.toSet? {kept cookie : Value} (h : Unaddressed kept) (hset : toSet? kept = .ok cookie) :
    Unaddressed cookie := by
  obtain ⟨members, rfl, hnone⟩ := h
  obtain ⟨own, rfl, hown⟩ := keys_of_read hset
  refine ⟨own, rfl, fun x hx hurl => ?_⟩
  obtain ⟨-, v, hv⟩ := hown x hx
  exact hnone _ (List.mem_filter.mp hv).1 hurl

theorem unaddressed_of_listedCookie {own cookie : Value} (h : StagedPage.listedCookie own = .ok cookie) :
    Unaddressed cookie := by
  unfold StagedPage.listedCookie at h
  simp only at h
  split at h
  · rename_i read hread
    cases h
    obtain ⟨members, rfl, hkeys⟩ := keys_of_read hread
    refine ⟨members, rfl, fun x hx hurl => ?_⟩
    have hknown := (hkeys x hx).1
    rw [hurl] at hknown
    exact absurd hknown (by decide)
  · cases h

theorem unaddressed_of_mapM {cookies listed : List Value} (h : cookies.mapM StagedPage.listedCookie = .ok listed) :
    ∀ cookie ∈ listed, Unaddressed cookie := by
  induction cookies generalizing listed with
  | nil =>
    cases h
    exact fun cookie hcookie => absurd hcookie List.not_mem_nil
  | cons own rest ih =>
    rw [List.mapM_cons] at h
    obtain ⟨cookie, hown, h⟩ := bind_eq_ok_iff.mp h
    obtain ⟨more, hrest, ⟨⟩⟩ := bind_eq_ok_iff.mp h
    exact List.forall_mem_cons.mpr ⟨unaddressed_of_listedCookie hown, ih hrest⟩

end DevTools.Cookie

/-! ## Pages that grant what they are asked -/

namespace DevTools

variable {π : Type}

namespace PageScript

/-- A script that begins with neither a parenthesis nor a word for functions is none. -/
theorem isFunction_eq_false {script : String} {c : Char} {cs : List Char} (h : script.toList = c :: cs)
    (printed : Text.isBlank c = false) (plain : c ≠ 'a' ∧ c ≠ 'f' ∧ c ≠ '(') : isFunction script = false := by
  obtain ⟨hasync, hfunction, hopen⟩ := plain
  have hstart : (c :: cs).dropWhile Text.isBlank = c :: cs := by simp [printed]
  have hnamed : Text.afterStart? "async ".toList (c :: cs) = none := by
    simp [Text.afterStart?, hasync.symm]
  have harrow : isArrow (c :: cs) = false := by
    unfold isArrow
    split
    · rename_i heq
      cases heq
      exact absurd rfl hopen
    · rfl
  have hword : "function ".toList.isPrefixOf (c :: cs) = false := by
    simp [List.isPrefixOf, hfunction.symm]
  simp only [isFunction, h, hstart, hnamed, Option.getD_none, harrow, hword, Bool.or_false]

theorem isFunction_storeScript (entry : StorageEntry) : isFunction (Tab.storeScript entry) = false := by
  obtain ⟨cs, hcs⟩ : ∃ cs, (Tab.storeScript entry).toList = 'l' :: cs := by
    unfold Tab.storeScript
    rw [String.toList_append, String.toList_append, String.toList_append, String.toList_append]
    exact ⟨_, rfl⟩
  exact isFunction_eq_false hcs (by decide) (by decide)

theorem isFunction_call (function : String) (args : List Json.Value) :
    isFunction (call function args) = false := by
  obtain ⟨cs, hcs⟩ : ∃ cs, (call function args).toList = 'v' :: cs := by
    unfold call
    rw [String.toList_append, String.toList_append, String.toList_append, String.toList_append]
    exact ⟨_, rfl⟩
  exact isFunction_eq_false hcs (by decide) (by decide)

end PageScript

/-- On the web cookies without an address are given that of the page. -/
theorem Tab.addressed_eq {url : String} (web : Text.startsWith url "http" = true)
    {cookies : List Json.Value} (h : ∀ cookie ∈ cookies, Cookie.Unaddressed cookie) :
    Tab.addressed url cookies = .ok (cookies.map fun cookie => Cookie.withUrl cookie url) := by
  simp only [Tab.addressed, web, Bool.not_true, Bool.false_eq_true, if_false, if_true]
  show List.mapM _ cookies = _
  induction cookies with
  | nil => rfl
  | cons cookie rest ih =>
    obtain ⟨hcookie, hrest⟩ := List.forall_mem_cons.mp h
    rw [List.mapM_cons, ih hrest, hcookie.text?]
    rfl

/-- What the script that looks at the storage gives. -/
def dumped (o : OriginStorage) : Json.Value :=
  .object [("localStorage", .array (o.localEntries.map StorageEntry.toValue)), ("origin", .string o.origin),
    ("sessionStorage", .array (o.sessionEntries.map StorageEntry.toValue))]

theorem read_dumped (o : OriginStorage) : OriginStorage.read (dumped o).toTree = .ok o :=
  OriginStorage.read_object (by simp) (by simp) rfl rfl (.inl rfl)

/-- The script that a snapshot has run in the page. -/
def dumpScript : String := PageScript.call PageScript.dumpStorage []

/-- While such a page is ready, every command succeeds and no script fails. It has this storage, and
tells it; cookies are listed without an address. -/
structure Granting {e : Endpoint π} (ledger : Ledger e) where
  ready : π → Prop
  storage : π → OriginStorage
  shown : ∀ {p q : π} {u : String}, ready p → e.address.MayEnd p u q → ready q
  granted : ∀ {α : Type} {c : Command α} {p q : π} {r : Except String α}, ready p →
    (e.send c).MayEnd p r q → ready q ∧ ∃ a, r = .ok a
  unharmed : ∀ {script : String} {p q : π} {text : String}, ready p →
    ¬(e.send (.evaluate script)).MayEnd p (.ok (.exception text)) q
  listed : ∀ {p q : π} {cookies : List Json.Value}, ready p →
    (e.send .getCookies).MayEnd p (.ok cookies) q →
      storage q = storage p ∧ ∀ cookie ∈ cookies, Cookie.Unaddressed cookie
  told : ∀ {p q : π} {ran : Evaluation}, ready p →
    (e.send (.evaluate dumpScript)).MayEnd p (.ok ran) q → ran = .value (dumped (storage p))

namespace Granting

open Ledger (mayEnd_of_onPage settable settable_of_mayEnd)

variable {e : Endpoint π} {ledger : Ledger e} (page : Granting ledger) {tab tab' : Tab π}

include page

theorem ready_of_address {u : String} (ready : page.ready tab.page)
    (h : (Tab.onPage e.address).MayEnd tab u tab') : page.ready tab'.page :=
  page.shown ready (mayEnd_of_onPage h)

theorem ok_of_order {α : Type} {c : Command α} {r : Answer α} (ready : page.ready tab.page)
    (h : (Tab.order e c).run.MayEnd tab r tab') :
    page.ready tab'.page ∧ ∃ a, r = .ok a ∧ (e.send c).MayEnd tab.page (.ok a) tab'.page := by
  obtain ⟨asked, m, first, second⟩ := Call.mayEnd_bind.mp h
  obtain ⟨rfl, rfl⟩ := second
  have hsend := mayEnd_of_onPage first
  obtain ⟨hready, a, rfl⟩ := page.granted ready hsend
  exact ⟨hready, a, rfl, hsend⟩

/-- A script that is no function is run, and its value is the answer. -/
theorem ok_of_evaluate {script : String} {r : Answer Json.Value} (plain : PageScript.isFunction script = false)
    (ready : page.ready tab.page) (h : (Tab.evaluate e script).MayEnd tab r tab') :
    page.ready tab'.page ∧ ∃ v ran, r = .ok v ∧ (∀ w, ran = .value w → v = w) ∧
      (e.send (.evaluate script)).MayEnd tab.page (.ok ran) tab'.page := by
  obtain ⟨asked, m, first, second⟩ := Call.mayEnd_bind.mp h
  rw [plain] at first
  have hsend := mayEnd_of_onPage first
  obtain ⟨hready, ran, rfl⟩ := page.granted ready hsend
  cases ran with
  | value v =>
    obtain ⟨rfl, rfl⟩ := second
    exact ⟨hready, v, _, rfl, fun w hw => Evaluation.value.inj hw, hsend⟩
  | undefined =>
    obtain ⟨rfl, rfl⟩ := second
    exact ⟨hready, .null, .undefined, rfl, nofun, hsend⟩
  | exception text => exact absurd hsend (page.unharmed ready)

theorem ok_of_storeAll {entries : List StorageEntry} {r : Answer Unit} (ready : page.ready tab.page)
    (h : (Tab.storeAll e entries).run.MayEnd tab r tab') : r = .ok () := by
  induction entries generalizing tab with
  | nil =>
    obtain ⟨rfl, rfl⟩ := h
    rfl
  | cons entry rest ih =>
    have hscript := PageScript.isFunction_storeScript entry
    rcases Call.mayEnd_bind_run h with ⟨v, m, first, second⟩ | ⟨fault, first, rfl⟩
    · exact ih (page.ok_of_evaluate hscript ready first).1 second
    · obtain ⟨-, v, ran, ⟨⟩, -⟩ := page.ok_of_evaluate hscript ready first

theorem ok_of_deleteAll {cookies : List Json.Value} {r : Answer Unit} (ready : page.ready tab.page)
    (h : (Tab.deleteAll e cookies).run.MayEnd tab r tab') : page.ready tab'.page ∧ r = .ok () := by
  induction cookies generalizing tab with
  | nil =>
    obtain ⟨rfl, rfl⟩ := h
    exact ⟨ready, rfl⟩
  | cons cookie rest ih =>
    rcases Call.mayEnd_bind_run h with ⟨u, m, first, second⟩ | ⟨fault, first, rfl⟩
    · exact ih (page.ok_of_order ready first).1 second
    · obtain ⟨-, a, ⟨⟩, -⟩ := page.ok_of_order ready first

theorem ok_of_setCookies {cookies : List Json.Value} {r : Answer Unit}
    (unaddressed : ∀ cookie ∈ cookies, Cookie.Unaddressed cookie)
    (ready : page.ready tab.page) (web : Text.startsWith (ledger.url tab.page) "http" = true)
    (h : (Tab.setCookies e cookies).run.MayEnd tab r tab') : page.ready tab'.page ∧ r = .ok () := by
  obtain ⟨url, m, first, h⟩ := Call.mayEnd_bind_lift h
  obtain ⟨rfl, -⟩ := ledger.url_of_address first
  have hready := page.ready_of_address ready first
  rw [Tab.addressed_eq web unaddressed] at h
  rcases Call.mayEnd_bind_run h with ⟨u, m', deleting, setting⟩ | ⟨fault, deleting, rfl⟩
  · obtain ⟨hset, u, rfl, -⟩ := page.ok_of_order (page.ok_of_deleteAll hready deleting).1 setting
    exact ⟨hset, rfl⟩
  · cases (page.ok_of_deleteAll hready deleting).2

/-- On the web a session is restored whose cookies tell no address. -/
theorem ok_of_restore {session : SavedSession} {r : Answer Unit}
    (unaddressed : ∀ cookie ∈ session.cookies, Cookie.Unaddressed cookie)
    (ready : page.ready tab.page) (web : Text.startsWith (ledger.url tab.page) "http" = true)
    (h : (Tab.restore e session).run.MayEnd tab r tab') : r = .ok () := by
  have hsettable : ∀ cookie ∈ settable session.cookies, Cookie.Unaddressed cookie := by
    intro cookie hcookie
    obtain ⟨kept, hkept, hset⟩ := List.mem_filterMap.mp hcookie
    cases hread : Cookie.toSet? kept with
    | error refusal => simp [hread, Except.toOption] at hset
    | ok read =>
      obtain rfl : read = cookie := by simpa [hread, Except.toOption] using hset
      exact (unaddressed kept hkept).toSet? hread
  have storing {m : Tab π} (hready : page.ready m.page)
      (h : ExceptT.run (do
        let url ← Tab.lift (Tab.onPage e.address)
        Tab.storeAll e (session.entriesAt url)) |>.MayEnd m r tab') : r = .ok () := by
    obtain ⟨url, m', first, second⟩ := Call.mayEnd_bind_lift h
    exact page.ok_of_storeAll (page.ready_of_address hready first) second
  rcases Call.mayEnd_bind_run h with ⟨cookies, m, first, rest⟩ | ⟨fault, first, -⟩
  · obtain ⟨⟨⟩, rfl⟩ := settable_of_mayEnd first
    split at rest
    · rcases Call.mayEnd_bind_run rest with ⟨u, m₁, setting, rest⟩ | ⟨fault, setting, rfl⟩
      · exact storing (page.ok_of_setCookies hsettable ready web setting).1 rest
      · cases (page.ok_of_setCookies hsettable ready web setting).2
    · exact storing ready rest
  · cases (settable_of_mayEnd first).1

theorem ok_of_storage {r : Answer (List OriginStorage)} (ready : page.ready tab.page)
    (web : Text.startsWith (page.storage tab.page).origin "http" = true)
    (h : (Tab.storage e).run.MayEnd tab r tab') : r = .ok [page.storage tab.page] := by
  obtain ⟨found, m, calling, h⟩ := Call.mayEnd_bind_lift h
  have hcalled : found = .ok (page.storage tab.page) := by
    have hplain := PageScript.isFunction_call PageScript.dumpStorage []
    rcases Call.mayEnd_bind_run calling with ⟨v, m', first, second⟩ | ⟨fault, first, rfl⟩
    · obtain ⟨-, _, ran, ⟨⟩, hvalue, hsend⟩ := page.ok_of_evaluate hplain ready first
      obtain rfl := hvalue _ (page.told ready hsend)
      rw [read_dumped] at second
      exact second.1.symm
    · obtain ⟨-, v, ran, ⟨⟩, -⟩ := page.ok_of_evaluate hplain ready first
  subst hcalled
  simp only [web, if_true] at h
  exact h.1.symm

/-- A snapshot holds the storage of the page. -/
theorem ok_of_snapshot {r : Answer SavedSession} (ready : page.ready tab.page)
    (web : Text.startsWith (page.storage tab.page).origin "http" = true)
    (h : (Tab.snapshot e).run.MayEnd tab r tab') :
    ∃ session, r = .ok session ∧ session.origins = [page.storage tab.page] ∧
      ∀ cookie ∈ session.cookies, Cookie.Unaddressed cookie := by
  rcases Call.mayEnd_bind_run h with ⟨cookies, m, listing, rest⟩ | ⟨fault, listing, rfl⟩
  · obtain ⟨hready, cookies, ⟨⟩, hsend⟩ := page.ok_of_order ready listing
    obtain ⟨hsame, hcookies⟩ := page.listed ready hsend
    rw [← hsame] at web ⊢
    rcases Call.mayEnd_bind_run rest with ⟨origins, m', telling, ending⟩ | ⟨fault, telling, rfl⟩
    · obtain ⟨rfl, -⟩ := ending
      cases page.ok_of_storage hready web telling
      exact ⟨_, rfl, rfl, hcookies⟩
    · cases page.ok_of_storage hready web telling
  · obtain ⟨-, a, ⟨⟩, -⟩ := page.ok_of_order ready listing

end Granting

namespace StagedPage

/-- No command is refused, every script is answered with this storage, and the cookies are well-formed. -/
structure Telling (o : OriginStorage) (p : StagedPage) : Prop where
  refusals : p.refusals = []
  answers : p.answers = []
  rules : p.rules = [⟨[], .value (dumped o)⟩]
  cookies : ∃ listed, p.cookies.mapM listedCookie = .ok listed

variable {o : OriginStorage} {p q : StagedPage}

theorem Telling.script (h : Telling o p) (text : String) : p.script text = (.value (dumped o), p) := by
  rw [StagedPage.script, h.answers, h.rules]
  rfl

theorem Telling.answer {α : Type} (h : Telling o p) (c : Command α) :
    Telling o (p.answer c).2 ∧ ∃ a, (p.answer c).1 = .ok a := by
  obtain ⟨listed, hlisted⟩ := h.cookies
  cases c with
  | getCookies => exact ⟨h, listed, hlisted⟩
  | evaluate text => simp [StagedPage.answer, h.script, h]
  | callFunction text => simp [StagedPage.answer, h.script, h]
  | navigate url => exact ⟨⟨h.refusals, h.answers, h.rules, h.cookies⟩, _, rfl⟩
  | _ => exact ⟨h, _, rfl⟩

/-- A command is answered as by the page that has received it. -/
theorem Telling.of_send {α : Type} {c : Command α} {r : Except String α} (h : Telling o p)
    (hsend : (send c).MayEnd p r q) : ∃ p', Telling o p' ∧ p'.answer c = (r, q) := by
  obtain ⟨m, p', ⟨now, rfl, rfl⟩, hsend⟩ := Call.mayEnd_bind.mp hsend
  have hreceived : takeRefusal c.method (p.receive c).refusals = (none, []) := by
    rw [receive, h.refusals]
    rfl
  simp only [hreceived] at hsend
  obtain ⟨hr, hq⟩ := hsend
  exact ⟨{ p.receive c with refusals := [] }, ⟨rfl, h.answers, h.rules, h.cookies⟩, Prod.ext hr hq⟩

def granting (o : OriginStorage) : Granting ledger where
  ready := Telling o
  storage _ := o
  shown := by
    intro p q u h hshown
    obtain ⟨m, p', ⟨now, rfl, rfl⟩, rfl, rfl⟩ := Call.mayEnd_bind.mp hshown
    exact h
  granted := by
    intro α c p q r h hsend
    obtain ⟨p', h', hanswer⟩ := h.of_send hsend
    have hnext := h'.answer c
    rwa [hanswer] at hnext
  unharmed := by
    intro script p q text h hsend
    obtain ⟨p', h', hanswer⟩ := h.of_send hsend
    simp [StagedPage.answer, h'.script] at hanswer
  listed := by
    intro p q cookies h hsend
    obtain ⟨p', h', hanswer⟩ := h.of_send hsend
    exact ⟨rfl, Cookie.unaddressed_of_mapM (Prod.ext_iff.mp hanswer).1⟩
  told := by
    intro p q ran h hsend
    obtain ⟨p', h', hanswer⟩ := h.of_send hsend
    simp only [StagedPage.answer, h'.script] at hanswer
    cases hanswer
    rfl

end StagedPage

end DevTools

end Rehearsal
