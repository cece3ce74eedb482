import Rehearsal.Proofs.GrantingPages

/-! # Storage from a snapshot and back

A snapshot of a page holds all of its web storage. On a page that grants every command it comes to its
end, and so does the restoring of it. But only the lasting storage is written, and only on a page whose
address begins with the origin: what was kept for the browser's session is in the snapshot and is
written nowhere.
-/
namespace Rehearsal

variable {σ α : Type}

namespace Call

theorem exists_mayEnd (call : Call σ α) (p : σ) : ∃ a q, call.MayEnd p a q := by
  induction call generalizing p with
  | done a => exact ⟨a, p, rfl, rfl⟩
  | look next ih =>
    obtain ⟨a, q, h⟩ := ih 0 p p
    exact ⟨a, q, 0, h⟩
  | save page next ih => exact ih page
  | pause millis next ih => exact ih p
  | cancel next ih => exact ih p
  | note line next ih => exact ih p

/-- Begun at a page, the call comes to its end, and whenever it does this holds. -/
def Comes (call : Call σ α) (p : σ) (Q : α → σ → Prop) : Prop :=
  (∃ a q, call.MayEnd p a q) ∧ ∀ a q, call.MayEnd p a q → Q a q

theorem comes_of_forall {call : Call σ α} {p : σ} {Q : α → σ → Prop}
    (h : ∀ a q, call.MayEnd p a q → Q a q) : call.Comes p Q :=
  ⟨call.exists_mayEnd p, h⟩

end Call

/-! ## What scripts write -/

/-- The two stores of an origin. -/
inductive WebStore where
  | lasting
  | passing
deriving DecidableEq, Repr

/-- How a script begins that sets an entry in the store. -/
def WebStore.opening : WebStore → List Char
  | lasting => "localStorage.setItem(".toList
  | passing => "sessionStorage.setItem(".toList

def OriginStorage.entries (o : OriginStorage) : WebStore → List StorageEntry
  | .lasting => o.localEntries
  | .passing => o.sessionEntries

namespace WebStore

open Json (Tree)

/-- A text in quotes, which scripts write as documents do, and what follows it. -/
def quoted? : List Char → Option (String × List Char)
  | '"' :: cs =>
    match Tree.stringFrom (cs.length + 1) (some []) cs with
    | some (some s, rest) => some (s, rest)
    | _ => none
  | _ => none

/-- The entry that a script sets in the store. -/
def setting? (store : WebStore) (script : String) : Option StorageEntry := do
  let cs ← Text.afterStart? store.opening script.toList
  let (name, cs) ← quoted? cs
  let cs ← Text.afterStart? ", ".toList cs
  let (value, cs) ← quoted? cs
  if cs = ")".toList then some ⟨name, value⟩ else none

/-- The entries that scripts set in the store, in their order. -/
def written (store : WebStore) (scripts : List String) : List StorageEntry :=
  scripts.filterMap store.setting?

theorem quoted?_quote (s : String) (rest : List Char) :
    quoted? ((Text.Quoted.quote s).toList ++ rest) = some (s, rest) := by
  obtain ⟨body, hbody, hread⟩ := Tree.stringFrom_quote s rest
  rw [hbody, List.cons_append, quoted?, hread]

theorem toList_storeScript (entry : StorageEntry) :
    (DevTools.Tab.storeScript entry).toList = lasting.opening ++
      ((Text.Quoted.quote entry.name).toList ++ (", ".toList ++
        ((Text.Quoted.quote entry.value).toList ++ ")".toList))) := by
  unfold DevTools.Tab.storeScript opening
  rw [String.toList_append, String.toList_append, String.toList_append, String.toList_append,
    List.append_assoc, List.append_assoc, List.append_assoc]

theorem setting?_storeScript (entry : StorageEntry) :
    lasting.setting? (DevTools.Tab.storeScript entry) = some entry ∧
      passing.setting? (DevTools.Tab.storeScript entry) = none := by
  constructor
  · simp only [setting?, toList_storeScript, Text.afterStart?_append, quoted?_quote, Option.bind_eq_bind,
      Option.bind_some, if_true]
  · have hother (rest : List Char) : Text.afterStart? passing.opening (lasting.opening ++ rest) = none := rfl
    rw [setting?, toList_storeScript, hother]
    rfl

/-- The scripts for entries write these, and nothing that passes. -/
theorem written_map_storeScript (entries : List StorageEntry) :
    lasting.written (entries.map DevTools.Tab.storeScript) = entries ∧
      passing.written (entries.map DevTools.Tab.storeScript) = [] := by
  constructor
  · have hsome : lasting.setting? ∘ DevTools.Tab.storeScript = some :=
      funext fun entry => (setting?_storeScript entry).1
    rw [written, List.filterMap_map, hsome, List.filterMap_some]
  · rw [written, List.filterMap_eq_nil_iff]
    intro script hscript
    obtain ⟨entry, -, rfl⟩ := List.mem_map.mp hscript
    exact (setting?_storeScript entry).2

end WebStore

open DevTools (Tab Endpoint Ledger Granting StagedPage)

theorem SavedSession.entriesAt_singleton {s : SavedSession} {o : OriginStorage} (h : s.origins = [o])
    (url : String) : s.entriesAt url = if Text.startsWith url o.origin then o.localEntries else [] := by
  cases hstart : Text.startsWith url o.origin <;> simp [entriesAt, h, hstart]

/-- What has become of the storage of an origin, by the scripts that a page was sent meanwhile. -/
structure Rewritten (o : OriginStorage) (url : String) (scripts : List String) : Prop where
  sent : scripts =
    (if Text.startsWith url o.origin then o.localEntries else []).map DevTools.Tab.storeScript
  /-- The lasting entries, each once and in their order, where the address begins with the origin. -/
  lasting : WebStore.lasting.written scripts = if Text.startsWith url o.origin then o.localEntries else []
  /-- Nothing of the browser's session. -/
  passing : WebStore.passing.written scripts = []

namespace Rewritten

variable {o : OriginStorage} {url : String} {scripts : List String}

theorem lasting_iff (h : Rewritten o url scripts) :
    WebStore.lasting.written scripts = o.localEntries ↔
      Text.startsWith url o.origin = true ∨ o.localEntries = [] := by
  rw [h.lasting]
  split_ifs with hstart
  · simp [hstart]
  · exact ⟨fun h => .inr h.symm, fun h => (h.resolve_left hstart).symm⟩

/-- The storage is what it was exactly if the page is at the origin, or nothing lasting was there, and
nothing of the browser's session was. -/
theorem whole_iff (h : Rewritten o url scripts) :
    (∀ store : WebStore, store.written scripts = o.entries store) ↔
      (Text.startsWith url o.origin = true ∨ o.localEntries = []) ∧ o.sessionEntries = [] := by
  rw [← h.lasting_iff]
  constructor
  · intro whole
    exact ⟨whole .lasting, (whole .passing).symm.trans h.passing⟩
  · rintro ⟨hlasting, hpassing⟩ store
    cases store with
    | lasting => exact hlasting
    | passing => exact h.passing.trans hpassing.symm

end Rewritten

/-- A session of one origin, restored on a page of the web that grants every command. -/
theorem DevTools.Granting.comes_restore {π : Type} {e : Endpoint π} {ledger : Ledger e} (page : Granting ledger)
    {session : SavedSession} {o : OriginStorage} (origins : session.origins = [o])
    (unaddressed : ∀ cookie ∈ session.cookies, DevTools.Cookie.Unaddressed cookie) {tab : Tab π}
    (ready : page.ready tab.page) (web : Text.startsWith (ledger.url tab.page) "http" = true) :
    (Tab.restore e session).run.Comes tab fun r tab' => r = .ok () ∧
      ∃ scripts, ledger.scripts tab'.page = ledger.scripts tab.page ++ scripts ∧
        Rewritten o (ledger.url tab.page) scripts := by
  refine Call.comes_of_forall fun r tab' h => ?_
  obtain rfl := page.ok_of_restore unaddressed ready web h
  have hscripts := (ledger.stores_of_restore h).1.sends.scripts
  rw [SavedSession.entriesAt_singleton origins] at hscripts
  obtain ⟨hlasting, hpassing⟩ := WebStore.written_map_storeScript
    (if Text.startsWith (ledger.url tab.page) o.origin then o.localEntries else [])
  exact ⟨rfl, _, hscripts, rfl, hlasting, hpassing⟩

/-- On a page that grants every command a snapshot comes to its end and holds all of the storage.
Restored on any such page of the web, it writes the lasting entries if the address begins with the
origin, and nothing of the browser's session. -/
theorem snapshot_restored {π : Type} {e : Endpoint π} {ledger : Ledger e} (page : Granting ledger) {tab : Tab π}
    (ready : page.ready tab.page) (web : Text.startsWith (page.storage tab.page).origin "http" = true) :
    let o := page.storage tab.page
    (Tab.snapshot e).run.Comes tab fun r _ => ∃ session, r = .ok session ∧ session.origins = [o] ∧
      ∀ fresh : Tab π, page.ready fresh.page → Text.startsWith (ledger.url fresh.page) "http" = true →
        (Tab.restore e session).run.Comes fresh fun r fresh' => r = .ok () ∧
          ∃ scripts, ledger.scripts fresh'.page = ledger.scripts fresh.page ++ scripts ∧
            Rewritten o (ledger.url fresh.page) scripts ∧
            ((∀ store : WebStore, store.written scripts = o.entries store) ↔
              (Text.startsWith (ledger.url fresh.page) o.origin = true ∨ o.localEntries = []) ∧
                o.sessionEntries = []) := by
  intro o
  refine Call.comes_of_forall fun r tab' hsnapshot => ?_
  obtain ⟨session, rfl, horigins, hcookies⟩ := page.ok_of_snapshot ready web hsnapshot
  refine ⟨session, rfl, horigins, fun fresh hfresh hurl => ?_⟩
  obtain ⟨hends, hrestores⟩ := page.comes_restore horigins hcookies hfresh hurl
  refine ⟨hends, fun r fresh' hrestore => ?_⟩
  obtain ⟨hr, scripts, hscripts, rewritten⟩ := hrestores r fresh' hrestore
  exact ⟨hr, scripts, hscripts, rewritten, rewritten.whole_iff⟩

/-- A token that lasts and a cart of the browser's session. -/
def carted : OriginStorage := ⟨"https://app.test", [⟨"token", "t-1"⟩], [⟨"cart", "c-1"⟩]⟩

/-- A page of the shop that has them and a cookie. -/
def shopPage : Tab StagedPage :=
  .ofPage { StagedPage.blank with
    url := "https://app.test/"
    rules := [⟨[], .value (DevTools.dumped carted)⟩]
    cookies := [.object [("name", .string "sid"), ("value", .string "abc")]] }

theorem telling_shopPage : StagedPage.Telling carted shopPage.page where
  refusals := rfl
  answers := rfl
  rules := rfl
  cookies := ⟨_, rfl⟩

/-- It is not so that on a page of the origin the storage becomes again what it was. -/
theorem not_snapshot_restored : ¬∀ (o : OriginStorage) (tab tab' fresh fresh' : Tab StagedPage)
    (session : SavedSession), StagedPage.Telling o tab.page → Text.startsWith o.origin "http" = true →
    (Tab.snapshot StagedPage.endpoint).run.MayEnd tab (.ok session) tab' →
    StagedPage.Telling o fresh.page → Text.startsWith fresh.page.url o.origin = true →
    (Tab.restore StagedPage.endpoint session).run.MayEnd fresh (.ok ()) fresh' →
    ∃ scripts, StagedPage.ledger.scripts fresh'.page = StagedPage.ledger.scripts fresh.page ++ scripts ∧
      ∀ store : WebStore, store.written scripts = o.entries store := by
  intro restored
  let page := StagedPage.granting carted
  obtain ⟨r, tab', hsnapshot⟩ := (Tab.snapshot StagedPage.endpoint).run.exists_mayEnd shopPage
  obtain ⟨session, rfl, horigins, hcookies⟩ := page.ok_of_snapshot telling_shopPage (by decide) hsnapshot
  have hweb : Text.startsWith shopPage.page.url "http" = true := by decide
  obtain ⟨⟨r, fresh', hrestore⟩, hends⟩ := page.comes_restore horigins hcookies telling_shopPage hweb
  obtain ⟨rfl, scripts, hscripts, rewritten⟩ := hends r fresh' hrestore
  obtain ⟨scripts', hscripts', whole⟩ := restored carted shopPage tab' shopPage fresh' session telling_shopPage
    (by decide) hsnapshot telling_shopPage (by decide) hrestore
  obtain rfl := List.append_cancel_left (hscripts.symm.trans hscripts')
  cases (rewritten.whole_iff.mp whole).2

/-- The token is written again, and the cart is not. -/
theorem snapshot_restored_shopPage : ∃ session tab' fresh',
    (Tab.snapshot StagedPage.endpoint).run.MayEnd shopPage (.ok session) tab' ∧
    session.origins = [carted] ∧
    (Tab.restore StagedPage.endpoint session).run.MayEnd shopPage (.ok ()) fresh' ∧
    WebStore.lasting.written (StagedPage.ledger.scripts fresh'.page) = [⟨"token", "t-1"⟩] ∧
    WebStore.passing.written (StagedPage.ledger.scripts fresh'.page) = [] := by
  obtain ⟨⟨r, tab', hsnapshot⟩, hends⟩ :=
    @snapshot_restored _ _ _ (StagedPage.granting carted) shopPage telling_shopPage (by decide)
  obtain ⟨session, rfl, horigins, restores⟩ := hends r tab' hsnapshot
  obtain ⟨⟨r, fresh', hrestore⟩, hends⟩ := restores shopPage telling_shopPage (by decide)
  obtain ⟨rfl, scripts, hscripts, rewritten, -⟩ := hends r fresh' hrestore
  refine ⟨session, tab', fresh', hsnapshot, horigins, hrestore, ?_, ?_⟩
  · rw [hscripts]
    exact rewritten.lasting
  · rw [hscripts]
    exact rewritten.passing

end Rehearsal
