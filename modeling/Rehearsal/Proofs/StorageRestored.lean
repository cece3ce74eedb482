import Rehearsal.DevTools.Staged
import Rehearsal.DevTools.Tab
import Rehearsal.Proofs.Asking
import Rehearsal.Proofs.LoginActs

/-! # What becomes of saved storage

The lasting storage of a saved session is written by scripts that the tab has run in its page, and only
for the origins that the page's address begins with. To make sure of a login, the session is restored
before the page that needs it is visited. So what is written by the time of the check depends on where
the page was when the step began: from a blank page on, nothing is.
-/
namespace Rehearsal

variable {σ τ α β : Type}

namespace Call

/-- Begun at a page, the call may end with this answer at another one, whatever time it takes. -/
def MayEnd : Call σ α → σ → α → σ → Prop
  | done b, p, a, q => b = a ∧ p = q
  | look next, p, a, q => ∃ now, (next now p).MayEnd p a q
  | save page next, _, a, q => next.MayEnd page a q
  | pause _ next, p, a, q => next.MayEnd p a q
  | cancel next, p, a, q => next.MayEnd p a q
  | note _ next, p, a, q => next.MayEnd p a q

theorem mayEnd_of_run {call : Call σ α} {w : Watch} {c c' : Clock} {s s' : World σ} {a : α}
    (h : call.run w c s = (.done a, c', s')) : call.MayEnd s.page a s'.page := by
  induction call generalizing c s with
  | done b =>
    cases h
    exact ⟨rfl, rfl⟩
  | look next ih => exact ⟨c.now, ih _ _ h⟩
  | save page next ih => exact ih h
  | pause millis next ih =>
    obtain ⟨u, c₁, s₁, hpause, h⟩ := Timed.done_of_bind h
    obtain ⟨e, c₂, leaves⟩ := Timed.pause_leaves millis w c
    rw [leaves] at hpause
    cases hpause
    exact ih h
  | cancel next ih => exact ih h
  | note line next ih => exact ih (s := s.say [line]) h

/-- Nor does it matter that it has to be over within a limit, if it was. -/
theorem mayEnd_of_within {call : Call σ α} {limit : Nat} {w : Watch} {c c' : Clock} {s s' : World σ} {a : α}
    (h : Timed.within limit call.run w c s = (.done (some a), c', s')) : call.MayEnd s.page a s'.page := by
  unfold Timed.within at h
  simp only at h
  split at h
  · rename_i hcall
    cases h
    exact mayEnd_of_run hcall
  · cases h
  · split at h <;> cases h

theorem mayEnd_bind {call : Call σ α} {f : α → Call σ β} {p q : σ} {b : β} :
    (call >>= f).MayEnd p b q ↔ ∃ a m, call.MayEnd p a m ∧ (f a).MayEnd m b q := by
  show (call.bind f).MayEnd p b q ↔ _
  induction call generalizing p with
  | done a =>
    constructor
    · intro h
      exact ⟨a, p, ⟨rfl, rfl⟩, h⟩
    · rintro ⟨_, _, ⟨rfl, rfl⟩, h⟩
      exact h
  | look next ih =>
    constructor
    · rintro ⟨now, h⟩
      obtain ⟨a, m, first, second⟩ := (ih now p).mp h
      exact ⟨a, m, ⟨now, first⟩, second⟩
    · rintro ⟨a, m, ⟨now, first⟩, second⟩
      exact ⟨now, (ih now p).mpr ⟨a, m, first, second⟩⟩
  | save page next ih => exact ih
  | pause millis next ih => exact ih
  | cancel next ih => exact ih
  | note line next ih => exact ih

/-- A call to a part of the state ends as it does where that is all there is. -/
theorem mayEnd_of_onPart {part : τ → σ} {put : σ → τ → τ}
    (put_part : ∀ page whole, part (put page whole) = page) {call : Call σ α} {x y : τ} {a : α}
    (h : (call.onPart part put).MayEnd x a y) : call.MayEnd (part x) a (part y) := by
  induction call generalizing x with
  | done b =>
    obtain ⟨rfl, rfl⟩ := h
    exact ⟨rfl, rfl⟩
  | look next ih =>
    obtain ⟨now, h⟩ := h
    exact ⟨now, ih _ _ h⟩
  | save page next ih =>
    obtain ⟨now, h⟩ := h
    have hnext := ih h
    rwa [put_part] at hnext
  | pause millis next ih => exact ih h
  | cancel next ih => exact ih h
  | note line next ih => exact ih h

/-- Work comes to its end after its first part, or with a failure in it. -/
theorem mayEnd_bind_run {ε : Type} {work : ExceptT ε (Call σ) α} {f : α → ExceptT ε (Call σ) β} {p q : σ}
    {r : Except ε β} (h : (work >>= f).run.MayEnd p r q) :
    (∃ a m, work.run.MayEnd p (.ok a) m ∧ (f a).run.MayEnd m r q) ∨
      ∃ e, work.run.MayEnd p (.error e) q ∧ r = .error e := by
  obtain ⟨r', m, first, second⟩ := mayEnd_bind.mp h
  cases r' with
  | ok a => exact .inl ⟨a, m, first, second⟩
  | error e =>
    obtain ⟨rfl, rfl⟩ := second
    exact .inr ⟨e, first, rfl⟩

/-- A call that cannot fail is followed by the rest of the work. -/
theorem mayEnd_bind_lift {ε : Type} {call : Call σ α} {f : α → ExceptT ε (Call σ) β} {p q : σ}
    {r : Except ε β} (h : ((ExceptT.lift call : ExceptT ε (Call σ) α) >>= f).run.MayEnd p r q) :
    ∃ a m, call.MayEnd p a m ∧ (f a).run.MayEnd m r q := by
  obtain ⟨lifted, m, first, second⟩ := mayEnd_bind.mp h
  obtain ⟨a, m', called, ⟨rfl, rfl⟩⟩ := mayEnd_bind.mp first
  exact ⟨a, m', called, second⟩

end Call

/-- The entries of the origins that an address begins with. -/
def SavedSession.entriesAt (s : SavedSession) (url : String) : List StorageEntry :=
  (s.origins.filter fun o => Text.startsWith url o.origin).flatMap (·.localEntries)

/-- On a blank page there is nothing of an origin on the web. -/
theorem SavedSession.entriesAt_blank {s : SavedSession}
    (web : ∀ o ∈ s.origins, Text.startsWith o.origin "http" = true) : s.entriesAt "about:blank" = [] := by
  have hnone : (s.origins.filter fun o => Text.startsWith "about:blank" o.origin) = [] := by
    rw [List.filter_eq_nil_iff]
    intro o ho hblank
    -- Then the blank page's address would begin with what the origin begins with.
    have hhttp := (List.isPrefixOf_iff_prefix.mp (web o ho)).trans (List.isPrefixOf_iff_prefix.mp hblank)
    revert hhttp
    decide
  unfold entriesAt
  rw [hnone, List.flatMap_nil]

namespace DevTools

variable {π : Type}

/-- The script that a command has run in the page. -/
def Command.script? : {α : Type} → Command α → Option String
  | _, .evaluate script => some script
  | _, .callFunction script => some script
  | _, _ => none

/-- The commands to restore a session, which do not take the page elsewhere. -/
inductive Command.Restores : {α : Type} → Command α → Prop
  | deleteCookies (name : String) : Restores (.deleteCookies name)
  | setCookies (cookies : List Json.Value) : Restores (.setCookies cookies)
  | evaluate (entry : StorageEntry) : Restores (.evaluate (Tab.storeScript entry))
  | callFunction (entry : StorageEntry) : Restores (.callFunction (Tab.storeScript entry))

/-- Of a page it can be told where it is and which scripts it has been sent. -/
structure Ledger (e : Endpoint π) where
  url : π → String
  scripts : π → List String
  shown : ∀ {p q : π} {u : String}, e.address.MayEnd p u q → u = url p ∧ url q = url p ∧ scripts q = scripts p
  sent : ∀ {α : Type} {c : Command α} {p q : π} {a : Except String α}, (e.send c).MayEnd p a q →
    scripts q = scripts p ++ c.script?.toList
  stays : ∀ {α : Type} {c : Command α} {p q : π} {a : Except String α}, c.Restores → (e.send c).MayEnd p a q →
    url q = url p

namespace Ledger

variable {e : Endpoint π} (ledger : Ledger e)

/-- The page stays where it is and is sent these scripts. -/
structure Sends (scripts : List String) (tab tab' : Tab π) : Prop where
  url : ledger.url tab'.page = ledger.url tab.page
  scripts : ledger.scripts tab'.page = ledger.scripts tab.page ++ scripts

variable {ledger} {tab tab' tab'' : Tab π} {a b : List String}

theorem Sends.refl (tab : Tab π) : ledger.Sends [] tab tab := ⟨rfl, (List.append_nil _).symm⟩

theorem Sends.trans (h : ledger.Sends a tab tab') (h' : ledger.Sends b tab' tab'') :
    ledger.Sends (a ++ b) tab tab'' :=
  ⟨h'.url.trans h.url, by rw [h'.scripts, h.scripts, List.append_assoc]⟩

/-- The page is sent the scripts for the first of the entries, and for all of them if nothing fails. -/
def Stores (ledger : Ledger e) (entries : List StorageEntry) (r : Answer Unit) (tab tab' : Tab π) : Prop :=
  ∃ sent, sent <+: entries ∧ (r = .ok () → sent = entries) ∧
    ledger.Sends (sent.map Tab.storeScript) tab tab'

theorem Stores.after {entries : List StorageEntry} {r : Answer Unit}
    (h : ledger.Stores entries r tab' tab'') (shown : ledger.Sends [] tab tab') :
    ledger.Stores entries r tab tab'' := by
  obtain ⟨sent, hprefix, hall, sends⟩ := h
  exact ⟨sent, hprefix, hall, shown.trans sends⟩

theorem Stores.sends {entries : List StorageEntry} (h : ledger.Stores entries (.ok ()) tab tab') :
    ledger.Sends (entries.map Tab.storeScript) tab tab' := by
  obtain ⟨sent, -, hall, sends⟩ := h
  rwa [hall rfl] at sends

theorem mayEnd_of_onPage {call : Call π α} {r : α} (h : (Tab.onPage call).MayEnd tab r tab') :
    call.MayEnd tab.page r tab'.page :=
  Call.mayEnd_of_onPart (fun _ _ => rfl) h

variable (ledger)

theorem sends_of_ask {c : Command α} (restores : c.Restores) {r : Except String α}
    (h : (Tab.ask e c).MayEnd tab r tab') : ledger.Sends c.script?.toList tab tab' :=
  ⟨ledger.stays restores (mayEnd_of_onPage h), ledger.sent (mayEnd_of_onPage h)⟩

theorem sends_of_order {c : Command α} (restores : c.Restores) {r : Answer α}
    (h : (Tab.order e c).run.MayEnd tab r tab') : ledger.Sends c.script?.toList tab tab' := by
  obtain ⟨r, m, first, second⟩ := Call.mayEnd_bind.mp h
  obtain ⟨-, rfl⟩ := second
  exact ledger.sends_of_ask restores first

theorem url_of_address {u : String} (h : (Tab.onPage e.address).MayEnd tab u tab') :
    u = ledger.url tab.page ∧ ledger.Sends [] tab tab' := by
  obtain ⟨hu, hurl, hscripts⟩ := ledger.shown (mayEnd_of_onPage h)
  exact ⟨hu, hurl, hscripts.trans (List.append_nil _).symm⟩

/-- However the script for an entry is run, the page is sent it. -/
theorem sends_of_evaluate {entry : StorageEntry} {r : Answer Json.Value}
    (h : (Tab.evaluate e (Tab.storeScript entry)).MayEnd tab r tab') :
    ledger.Sends [Tab.storeScript entry] tab tab' := by
  obtain ⟨r, m, first, second⟩ := Call.mayEnd_bind.mp h
  have hm : m = tab' := by
    rcases r with text | _ | _ | text <;> exact second.2
  subst hm
  split at first
  · exact ledger.sends_of_ask (.callFunction entry) first
  · exact ledger.sends_of_ask (.evaluate entry) first

/-- However far it comes, only the first of the entries are stored, and all of them if nothing fails. -/
theorem stores_of_storeAll {entries : List StorageEntry} {r : Answer Unit}
    (h : (Tab.storeAll e entries).run.MayEnd tab r tab') : ledger.Stores entries r tab tab' := by
  induction entries generalizing tab with
  | nil =>
    obtain ⟨rfl, rfl⟩ := h
    exact ⟨[], List.nil_prefix, fun _ => rfl, .refl tab⟩
  | cons entry rest ih =>
    rcases Call.mayEnd_bind_run h with ⟨v, m, first, second⟩ | ⟨fault, first, rfl⟩
    · obtain ⟨sent, hprefix, hall, sends⟩ := ih second
      refine ⟨entry :: sent, List.cons_prefix_cons.mpr ⟨rfl, hprefix⟩, fun hr => by rw [hall hr], ?_⟩
      exact (ledger.sends_of_evaluate first).trans sends
    · exact ⟨[entry], List.cons_prefix_cons.mpr ⟨rfl, List.nil_prefix⟩, nofun,
        ledger.sends_of_evaluate first⟩

theorem sends_of_deleteAll {cookies : List Json.Value} {r : Answer Unit}
    (h : (Tab.deleteAll e cookies).run.MayEnd tab r tab') : ledger.Sends [] tab tab' := by
  induction cookies generalizing tab with
  | nil =>
    obtain ⟨-, rfl⟩ := h
    exact .refl tab
  | cons cookie rest ih =>
    rcases Call.mayEnd_bind_run h with ⟨u, m, first, second⟩ | ⟨fault, first, -⟩
    · exact (ledger.sends_of_order (.deleteCookies _) first).trans (ih second)
    · exact ledger.sends_of_order (.deleteCookies _) first

/-- The cookies among those kept that can be set again. -/
def settable (cookies : List Json.Value) : List Json.Value :=
  cookies.filterMap fun kept => (Cookie.toSet? kept).toOption

theorem settable_of_mayEnd {cookies : List Json.Value} {r : Answer (List Json.Value)}
    (h : (Tab.settable (π := π) cookies).run.MayEnd tab r tab') :
    r = .ok (settable cookies) ∧ tab' = tab := by
  induction cookies generalizing r tab with
  | nil =>
    obtain ⟨rfl, rfl⟩ := h
    exact ⟨rfl, rfl⟩
  | cons kept rest ih =>
    unfold Tab.settable at h
    split at h
    · rename_i cookie hcookie
      have hfound : settable (kept :: rest) = cookie :: settable rest := by
        simp [settable, hcookie, Except.toOption]
      rcases Call.mayEnd_bind_run h with ⟨more, m, first, second⟩ | ⟨fault, first, -⟩
      · obtain ⟨rfl, rfl⟩ := second
        obtain ⟨⟨⟩, rfl⟩ := ih first
        exact ⟨by rw [hfound], rfl⟩
      · cases (ih first).1
    · rename_i refusal hcookie
      have hfound : settable (kept :: rest) = settable rest := by
        simp [settable, hcookie, Except.toOption]
      obtain ⟨u, m, first, second⟩ := Call.mayEnd_bind_lift h
      obtain ⟨rfl, rfl⟩ := ih second
      obtain ⟨-, rfl⟩ := first
      exact ⟨by rw [hfound], rfl⟩

/-- No script is sent to set cookies, which can be done only on a page that is not blank. -/
theorem sends_of_setCookies {cookies : List Json.Value} {r : Answer Unit}
    (h : (Tab.setCookies e cookies).run.MayEnd tab r tab') :
    ledger.Sends [] tab tab' ∧ (r = .ok () → ledger.url tab.page ≠ "about:blank") := by
  obtain ⟨u, m, first, h⟩ := Call.mayEnd_bind_lift h
  obtain ⟨rfl, shown⟩ := ledger.url_of_address first
  split at h
  · obtain ⟨rfl, rfl⟩ := h
    exact ⟨shown, nofun⟩
  · rename_i own haddressed
    refine ⟨?_, fun _ blank => ?_⟩
    · rcases Call.mayEnd_bind_run h with ⟨v, m', deleted, set⟩ | ⟨fault, deleted, -⟩
      · have cleared := shown.trans (ledger.sends_of_deleteAll deleted)
        exact cleared.trans (ledger.sends_of_order (.setCookies own) set)
      · exact shown.trans (ledger.sends_of_deleteAll deleted)
    · rw [blank] at haddressed
      cases haddressed

/-- The storage that is written is that of the page which is there. -/
theorem stores_of_storing {session : SavedSession} {r : Answer Unit}
    (h : ExceptT.run (do
      let url ← Tab.lift (Tab.onPage e.address)
      Tab.storeAll e (session.entriesAt url)) |>.MayEnd tab r tab') :
    ledger.Stores (session.entriesAt (ledger.url tab.page)) r tab tab' := by
  obtain ⟨url, m, showing, storing⟩ := Call.mayEnd_bind_lift h
  obtain ⟨rfl, shown⟩ := ledger.url_of_address showing
  exact (ledger.stores_of_storeAll storing).after shown

/-- What restoring a session comes to. -/
theorem stores_of_restore {session : SavedSession} {r : Answer Unit}
    (h : (Tab.restore e session).run.MayEnd tab r tab') :
    ledger.Stores (session.entriesAt (ledger.url tab.page)) r tab tab' ∧
      (r = .ok () → ledger.url tab.page = "about:blank" → settable session.cookies = []) := by
  rcases Call.mayEnd_bind_run h with ⟨cookies, m, first, rest⟩ | ⟨fault, first, -⟩
  · obtain ⟨⟨⟩, rfl⟩ := settable_of_mayEnd first
    split at rest
    · rcases Call.mayEnd_bind_run rest with ⟨u, m₁, setting, storing⟩ | ⟨fault, setting, rfl⟩
      · obtain ⟨set, hurl⟩ := ledger.sends_of_setCookies setting
        have stored := ledger.stores_of_storing storing
        -- Setting cookies leaves the page where it is, so the storage is held against the first address.
        rw [set.url] at stored
        exact ⟨stored.after set, fun _ blank => absurd blank (hurl rfl)⟩
      · exact ⟨⟨[], List.nil_prefix, nofun, (ledger.sends_of_setCookies setting).1⟩, nofun⟩
    · rename_i hempty
      exact ⟨ledger.stores_of_storing rest, fun _ _ => by simpa using hempty⟩
  · cases (settable_of_mayEnd first).1

theorem scripts_of_goto {url : String} {r : Answer Unit} (h : (Tab.goto e url).MayEnd tab r tab') :
    ledger.scripts tab'.page = ledger.scripts tab.page := by
  obtain ⟨r, m, first, second⟩ := Call.mayEnd_bind.mp h
  have hm : m = tab' := by
    rcases r with text | _ | reason <;> exact second.2
  subst hm
  exact (ledger.sent (mayEnd_of_onPage first)).trans (List.append_nil _)

end Ledger

namespace StagedPage

/-- The script of a command that was received. -/
def script? : Json.Value → Option String
  | .array [.string method, .string text] =>
    if method = "Runtime.evaluate" ∨ method = "Runtime.callFunctionOn" then some text else none
  | _ => none

theorem script_of_shown {α : Type} (c : Command α) :
    (shown c).toList.filterMap script? = c.script?.toList := by
  cases c <;> rfl

theorem received_of_answer {α : Type} (c : Command α) (p : StagedPage) :
    (p.answer c).2.received = p.received := by
  have hscript : ∀ text, (p.script text).2.received = p.received := by
    intro text
    unfold script
    split <;> rfl
  cases c with
  | evaluate text => exact hscript text
  | callFunction text => exact hscript text
  | _ => rfl

theorem url_of_answer {α : Type} {c : Command α} (restores : c.Restores) (p : StagedPage) :
    (p.answer c).2.url = p.url := by
  have hscript : ∀ text, (p.script text).2.url = p.url := by
    intro text
    unfold script
    split <;> rfl
  cases restores with
  | deleteCookies name => rfl
  | setCookies cookies => rfl
  | evaluate entry => exact hscript _
  | callFunction entry => exact hscript _

/-- A command is received whatever becomes of it, and only a visit takes the page elsewhere. -/
theorem received_of_send {α : Type} {c : Command α} {p q : StagedPage} {a : Except String α}
    (h : (send c).MayEnd p a q) :
    q.received = p.received ++ (shown c).toList ∧ (c.Restores → q.url = p.url) := by
  obtain ⟨m, p', ⟨now, rfl, rfl⟩, h⟩ := Call.mayEnd_bind.mp h
  simp only at h
  split at h
  · obtain ⟨-, rfl⟩ := h
    exact ⟨rfl, fun _ => rfl⟩
  · obtain ⟨-, rfl⟩ := h
    exact ⟨received_of_answer c _, fun restores => url_of_answer restores _⟩

def ledger : Ledger endpoint where
  url := StagedPage.url
  scripts p := p.received.filterMap script?
  shown := by
    intro p q u h
    obtain ⟨m, p', ⟨now, rfl, rfl⟩, rfl, rfl⟩ := Call.mayEnd_bind.mp h
    exact ⟨rfl, rfl, rfl⟩
  sent := by
    intro α c p q a h
    rw [(received_of_send h).1, List.filterMap_append, script_of_shown]
  stays restores h := (received_of_send h).2 restores

/-- A blank page that answers every script with nothing. -/
def blank : StagedPage := ⟨"about:blank", [], [], [], [], [], [], [], [], []⟩

end StagedPage

end DevTools

namespace Login

open DevTools (Tab Endpoint Ledger StagedPage)

section

variable (stage : Stage σ) (runner : Runner σ) (place : Place) (stack : CallStack) (login : LoginTask)
  (timeout : Nat)

/-- What is done before it is checked whether one is logged in. -/
def approach : Work σ Bool := do
  enter stage place .checking
  let restored ← load stage place login.stateName
  visit stage login.checkUrl timeout
  return restored

/-- To make sure of a login is to do that first, and then to check. -/
theorem ensure_approaches :
    ∃ rest : Bool → Bool → Work σ Unit, ensure stage runner place stack login timeout =
      (approach stage place login timeout >>= fun restored =>
        check stage place login timeout >>= rest restored) := by
  apply Exists.intro
  unfold ensure approach
  simp only [bind_assoc, pure_bind]
  rfl

end

section

variable {stage : Stage σ} {place : Place} {login : LoginTask} {timeout : Nat} {w : Watch}
  {x y : Clock × World σ × Trace}

theorem mayEnd_of_visit {url : String} (h : (visit stage url timeout).run w x.1 x.2 = (.done (.ok ()), y)) :
    (stage.browser.goto url).MayEnd x.2.1.page (.ok ()) y.2.1.page := by
  obtain ⟨c, s, t⟩ := x
  obtain ⟨c', s', t'⟩ := y
  obtain ⟨h, -⟩ := Timed.done_of_onFirst h
  obtain ⟨answer, c₁, s₁, hgoto, h⟩ := Timed.done_of_bind h
  rcases answer with _ | _ | _
  · cases h
  · cases h
  · cases h
    exact Call.mayEnd_of_within hgoto

/-- The session is loaded where the step began, and then the page is visited. -/
theorem loaded_of_approach {restored : Bool}
    (h : (approach stage place login timeout).run w x.1 x.2 = (.done (.ok restored), y)) :
    ∃ x₁ z, x₁.2.1.page = x.2.1.page ∧ x₁.2.1.desk = x.2.1.desk ∧
      Loaded stage (key stage login.stateName) w x₁ z (.ok restored) ∧
      (visit stage login.checkUrl timeout).run w z.1 z.2 = (.done (.ok ()), y) := by
  obtain ⟨_, c₁, x₁, hentered, h⟩ | ⟨e, -, ⟨⟩⟩ := Work.done_of_bind h
  obtain ⟨restored', c₂, x₂, hloaded, h⟩ | ⟨e, -, ⟨⟩⟩ := Work.done_of_bind h
  obtain ⟨_, c₃, x₃, hvisited, h⟩ | ⟨e, -, ⟨⟩⟩ := Work.done_of_bind h
  cases h
  have loaded := loaded_of_load (x := (c₁, x₁)) (y := (c₂, x₂)) hloaded
  rw [enter_run] at hentered
  cases hentered
  exact ⟨_, _, stage.page_heard .., stage.desk_heard .., loaded, hvisited⟩

end

variable {π : Type}

/-- What has become of a session that was restored, in between two states of the page. -/
structure Restored {e : Endpoint π} (ledger : Ledger e) (session : SavedSession) (before after : π) :
    Prop where
  stays : ledger.url after = ledger.url before
  /-- Where the page is decides what is written. -/
  written : ledger.scripts after =
    ledger.scripts before ++ (session.entriesAt (ledger.url before)).map Tab.storeScript
  atHome : ∀ o ∈ session.origins, Text.startsWith (ledger.url before) o.origin = true →
    ∀ entry ∈ o.localEntries, Tab.storeScript entry ∈ ledger.scripts after
  /-- On a blank page nothing of the web is written. -/
  abroad : ledger.url before = "about:blank" →
    (∀ o ∈ session.origins, Text.startsWith o.origin "http" = true) →
      ledger.scripts after = ledger.scripts before
  /-- With a cookie that can be set, a session is not restored there. -/
  cookieless : ledger.url before = "about:blank" → Ledger.settable session.cookies = []

theorem restored_of_restore {e : Endpoint π} {ledger : Ledger e} {session : SavedSession} {tab tab' : Tab π}
    (restores : (Tab.restore e session).run.MayEnd tab (.ok ()) tab') :
    Restored ledger session tab.page tab'.page := by
  obtain ⟨stores, cookieless⟩ := ledger.stores_of_restore restores
  have sends := stores.sends
  refine ⟨sends.url, sends.scripts, ?_, ?_, cookieless rfl⟩
  · intro o ho home entry hentry
    rw [sends.scripts]
    apply List.mem_append_right
    exact List.mem_map_of_mem (List.mem_flatMap.mpr ⟨o, List.mem_filter.mpr ⟨ho, home⟩, hentry⟩)
  · intro blank web
    rw [sends.scripts, blank, SavedSession.entriesAt_blank web, List.map_nil, List.append_nil]

/-- A saved session that was loaded was restored. -/
theorem restored_of_loaded {e : Endpoint π} (ledger : Ledger e) {stage : Stage (Tab π)} {key : Session.Key}
    {w : Watch} {x y : Clock × World (Tab π) × Trace} {session : SavedSession} {restored : Bool}
    (worked : stage.browser = Tab.browser e)
    (saved : stage.sessions.get x.2.1.desk key = .ok (some session))
    (loaded : Loaded stage key w x y (.ok restored)) :
    restored = true ∧ Restored ledger session x.2.1.page.page y.2.1.page.page := by
  generalize hr : (Except.ok restored : Except Failure Bool) = r at loaded
  cases loaded with
  | unread get => cases hr
  | missing get =>
    rw [get] at saved
    cases saved
  | @restored found answer s get ran page =>
    rw [get] at saved
    cases saved
    cases answer with
    | error fault => cases hr
    | ok _ =>
      cases hr
      have restores : (Tab.restore e session).run.MayEnd x.2.1.page (.ok ()) y.2.1.page := by
        have hrestore := Call.mayEnd_of_run ran
        rwa [worked, ← page] at hrestore
      exact ⟨rfl, restored_of_restore restores⟩

/-- By the time of the check, saved storage is written for the origins that begin the address at which the
step began, before the page that is checked is visited, and for no others. -/
theorem storage_at_check {e : Endpoint π} (ledger : Ledger e) {stage : Stage (Tab π)}
    (runner : Runner (Tab π)) (place : Place) (stack : CallStack) (login : LoginTask) (timeout : Nat) {w : Watch}
    {x y : Clock × World (Tab π) × Trace} {session : SavedSession} {restored : Bool}
    (worked : stage.browser = Tab.browser e)
    (saved : stage.sessions.get x.2.1.desk (key stage login.stateName) = .ok (some session))
    (reached : (approach stage place login timeout).run w x.1 x.2 = (.done (.ok restored), y)) :
    (∃ rest : Bool → Work (Tab π) Unit, (ensure stage runner place stack login timeout).run w x.1 x.2 =
        (check stage place login timeout >>= rest).run w y.1 y.2) ∧
      restored = true ∧
      ∃ z : Clock × World (Tab π) × Trace,
        (visit stage login.checkUrl timeout).run w z.1 z.2 = (.done (.ok ()), y) ∧
        Restored ledger session x.2.1.page.page z.2.1.page.page ∧
        ledger.scripts y.2.1.page.page = ledger.scripts z.2.1.page.page := by
  obtain ⟨x₁, z, hpage, hdesk, loaded, visited⟩ := loaded_of_approach reached
  rw [← hdesk] at saved
  obtain ⟨rfl, hrestored⟩ := restored_of_loaded ledger worked saved loaded
  rw [hpage] at hrestored
  have goes := mayEnd_of_visit visited
  rw [worked] at goes
  refine ⟨?_, rfl, z, visited, hrestored, ledger.scripts_of_goto goes⟩
  obtain ⟨rest, hensure⟩ := ensure_approaches stage runner place stack login timeout
  refine ⟨rest true, ?_⟩
  rw [hensure]
  exact Timed.bind_of_done reached

/-- A stage with a tab on a staged page. -/
def tabbed : Stage (Tab StagedPage) := { Stage.bare [] with browser := Tab.browser StagedPage.endpoint }

/-- A session with an entry in the storage of an origin. -/
def tokened : SavedSession := ⟨[], [⟨"https://app.test", [⟨"token", "t-1"⟩], []⟩]⟩

def dashing : LoginTask := ⟨"https://app.test/dash", "a", "s", none, ""⟩

/-- A world with that session and a page that is still blank. -/
def unvisited : World (Tab StagedPage) :=
  .ofPage (.ofPage .blank) (Preflight.nowhere.putSession ⟨"default", "s"⟩ tokened)

theorem approach_blank :
    ∃ y, (approach tabbed ⟨"r", 0, 0⟩ dashing 150).run .none .start (unvisited, .empty) =
        (.done (.ok true), y) ∧
      y.2.1.page.page.url = "https://app.test/dash" ∧ StagedPage.ledger.scripts y.2.1.page.page = [] :=
  ⟨_, rfl, rfl, rfl⟩

/-- It is not so that, if a page is blank when the step begins and the visit leads to the page that needs
the login, what is saved for the origin of that page has been written. -/
theorem not_stored_at_check :
    ¬∀ (stage : Stage (Tab StagedPage)) (place : Place) (login : LoginTask) (timeout : Nat) (w : Watch)
      (x y : Clock × World (Tab StagedPage) × Trace) (session : SavedSession),
      stage.browser = Tab.browser StagedPage.endpoint →
      stage.sessions.get x.2.1.desk (key stage login.stateName) = .ok (some session) →
      x.2.1.page.page.url = "about:blank" →
      (approach stage place login timeout).run w x.1 x.2 = (.done (.ok true), y) →
      y.2.1.page.page.url = login.checkUrl →
      ∀ o ∈ session.origins, Text.startsWith login.checkUrl o.origin = true →
        ∀ entry ∈ o.localEntries, Tab.storeScript entry ∈ StagedPage.ledger.scripts y.2.1.page.page := by
  intro stored
  obtain ⟨y, reached, there, hscripts⟩ := approach_blank
  have hwritten := stored tabbed ⟨"r", 0, 0⟩ dashing 150 .none (.start, unvisited, .empty) y tokened rfl rfl
    rfl reached there _ (List.mem_singleton_self _) (by decide) _ (List.mem_singleton_self _)
  rw [hscripts] at hwritten
  exact List.not_mem_nil hwritten

/-- From a blank page the check is reached and nothing has been written. -/
theorem storage_at_check_tokened :
    ∃ y z : Clock × World (Tab StagedPage) × Trace,
      (approach tabbed ⟨"r", 0, 0⟩ dashing 150).run .none .start (unvisited, .empty) = (.done (.ok true), y) ∧
      Restored StagedPage.ledger tokened .blank z.2.1.page.page ∧
      StagedPage.ledger.scripts y.2.1.page.page = StagedPage.ledger.scripts z.2.1.page.page ∧
      StagedPage.ledger.scripts y.2.1.page.page = [] ∧ tokened.entriesAt "https://app.test/dash" ≠ [] := by
  obtain ⟨y, reached, -, hscripts⟩ := approach_blank
  obtain ⟨-, -, z, -, restored, same⟩ := storage_at_check StagedPage.ledger (Play.runner tabbed) ⟨"r", 0, 0⟩
    (.root "r") dashing 150 (x := (.start, unvisited, .empty)) rfl rfl reached
  exact ⟨y, z, reached, restored, same, hscripts, by decide⟩

end Login

end Rehearsal
