import Rehearsal.Proofs.Origins
import Rehearsal.Proofs.StorageRestored

/-! # Storage of the page's own origin

However far the restoring of a session comes, the page is sent scripts for entries of those origins
only whose texts its address begins with. That is not yet to be in the origin: what is written is the
page's own exactly if the authority of the address goes on after the text in one of few ways.
-/
namespace Rehearsal

open DevTools (Tab Endpoint Ledger StagedPage)
open Web (Origin SameOrigin)

namespace SavedSession

variable {s : SavedSession} {url : String}

theorem mem_entriesAt_iff {entry : StorageEntry} :
    entry ∈ s.entriesAt url ↔
      ∃ saved ∈ s.origins, Text.startsWith url saved.origin = true ∧ entry ∈ saved.localEntries := by
  simp [entriesAt, and_assoc]

/-- Every entry that is written on a page at the address is saved under the page's own origin. -/
def OwnOnly (s : SavedSession) (url : String) : Prop :=
  ∀ saved ∈ s.origins, ∀ entry ∈ saved.localEntries, Text.startsWith url saved.origin = true →
    SameOrigin url saved.origin

/-- The storage is saved under texts of origins. -/
def Proper (s : SavedSession) : Prop :=
  ∀ saved ∈ s.origins, ∃ origin : Origin, origin.Proper ∧ saved.origin = origin.text

/-- The address is within every origin that it begins with and that has entries. -/
def Within (s : SavedSession) (url : String) : Prop :=
  ∀ saved ∈ s.origins, saved.localEntries ≠ [] → Text.startsWith url saved.origin = true →
    ∀ origin : Origin, origin.Proper → saved.origin = origin.text → origin.Within url

theorem Proper.ownOnly_iff (h : s.Proper) : s.OwnOnly url ↔ s.Within url := by
  constructor
  · intro own saved hsaved hentries hstart origin proper htext
    obtain ⟨entry, hentry⟩ := List.exists_mem_of_ne_nil _ hentries
    have same := own saved hsaved entry hentry hstart
    rw [htext] at same hstart
    exact (proper.sameOrigin_iff_within hstart).mp same
  · intro within saved hsaved entry hentry hstart
    obtain ⟨origin, proper, htext⟩ := h saved hsaved
    have inside := within saved hsaved (List.ne_nil_of_mem hentry) hstart origin proper htext
    rw [htext] at hstart ⊢
    exact (proper.sameOrigin_iff_within hstart).mpr inside

end SavedSession

/-- Restoring a session, also one that fails on the way, sends the page scripts for entries of origins
that its address begins with, and no others. For origins as they are written, this keeps to the page's
own origin exactly if the address is within each of them. -/
theorem stored_within_origins {π : Type} {e : Endpoint π} (ledger : Ledger e) {session : SavedSession}
    {tab tab' : Tab π} {r : Answer Unit} (restored : (Tab.restore e session).run.MayEnd tab r tab') :
    let url := ledger.url tab.page
    (∃ sent, sent <+: session.entriesAt url ∧ (r = .ok () → sent = session.entriesAt url) ∧
      ledger.scripts tab'.page = ledger.scripts tab.page ++ sent.map Tab.storeScript) ∧
    (∀ entry, entry ∈ session.entriesAt url ↔
      ∃ saved ∈ session.origins, Text.startsWith url saved.origin = true ∧ entry ∈ saved.localEntries) ∧
    (∀ origin : Origin, origin.Proper → Text.startsWith url origin.text = true →
      (SameOrigin url origin.text ↔ origin.Within url)) ∧
    (session.Proper → (session.OwnOnly url ↔ session.Within url)) := by
  intro url
  obtain ⟨sent, hprefix, hall, sends⟩ := (ledger.stores_of_restore restored).1
  exact ⟨⟨sent, hprefix, hall, sends.scripts⟩, fun entry => SavedSession.mem_entriesAt_iff,
    fun origin proper hstart => proper.sameOrigin_iff_within hstart, fun proper => proper.ownOnly_iff⟩

/-- A session with a token saved under the text of an origin. -/
def tokenAt (origin : String) : SavedSession := ⟨[], [⟨origin, [⟨"token", "t-1"⟩], []⟩]⟩

/-- A blank page taken to an address. -/
def pageAt (url : String) : Tab StagedPage := .ofPage { StagedPage.blank with url }

/-- Restored on the page, the session ends with its token written. -/
def Writes (origin url : String) : Prop :=
  ∃ tab', (Tab.restore StagedPage.endpoint (tokenAt origin)).run.MayEnd (pageAt url) (.ok ()) tab' ∧
    StagedPage.ledger.scripts tab'.page = ["localStorage.setItem(\"token\", \"t-1\")"]

theorem writes_of_run {origin url : String} {y : Clock × World (Tab StagedPage)}
    (hrun : (Tab.restore StagedPage.endpoint (tokenAt origin)).run.run .none .start
      (.ofPage (pageAt url) Preflight.nowhere) = (.done (.ok ()), y))
    (hscripts : StagedPage.ledger.scripts y.2.page.page = ["localStorage.setItem(\"token\", \"t-1\")"]) :
    Writes origin url :=
  ⟨y.2.page, Call.mayEnd_of_run hrun, hscripts⟩

/-- On a page of the origin the token is at home. -/
theorem stored_within_origins_dash :
    Writes "https://app.test" "https://app.test/dash" ∧
      (tokenAt "https://app.test").OwnOnly "https://app.test/dash" := by
  have writes : Writes "https://app.test" "https://app.test/dash" := writes_of_run rfl rfl
  have ⟨_, hrun, _⟩ := writes
  obtain ⟨-, -, -, own⟩ := stored_within_origins StagedPage.ledger hrun
  have htest : (⟨"https", "app.test", 443⟩ : Origin).Proper := .of_colonless rfl (by decide)
  refine ⟨writes, (own ?_).mpr ?_⟩
  · intro saved hsaved
    obtain rfl := List.mem_singleton.mp hsaved
    exact ⟨_, htest, by decide⟩
  · intro saved hsaved _ _ origin proper htext
    obtain rfl := List.mem_singleton.mp hsaved
    have hread := proper.ofAddress?_text
    rw [← htext] at hread
    obtain rfl : ⟨"https", "app.test", 443⟩ = origin := Option.some.inj hread
    exact ⟨"/dash".toList, by decide, .port (.unwritten rfl)⟩

/-- A host, a port and a user that go on after the text of an origin take the token elsewhere. -/
theorem not_own_only :
    (Writes "https://app.test" "https://app.test.evil.test/" ∧
      ¬ SameOrigin "https://app.test.evil.test/" "https://app.test") ∧
    (Writes "https://app.test:84" "https://app.test:8443/" ∧
      ¬ SameOrigin "https://app.test:8443/" "https://app.test:84") ∧
    Writes "https://app.test" "https://app.test@evil.test/" ∧
      ¬ SameOrigin "https://app.test@evil.test/" "https://app.test" :=
  ⟨⟨writes_of_run rfl rfl, by decide⟩, ⟨writes_of_run rfl rfl, by decide⟩, writes_of_run rfl rfl, by decide⟩

end Rehearsal
