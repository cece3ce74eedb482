import Rehearsal.Proofs.Assurance
import Rehearsal.Proofs.LoginActs

/-! # The course of making sure of a login

What the courses have in common, whatever the store, the browser and the runner do. The login scenario is
played at most once, and only after a check that said no; a session is put at most once, and only after a
login scenario that was played to a good end; what the login came to is passed on; and the phases tell how
far it got.
-/
namespace Rehearsal

open Timed (Maintains Whatever)

variable {σ : Type}

namespace Play

/-- Why a scenario that no other plays already cannot be played: it cannot be read, or there is none. -/
def lacking (stage : Stage σ) (desk : Desk) (id : String) : Option Failure :=
  match (stage.scenarios.load desk id).1 with
  | .error e => some e
  | .ok none => some (.scenarioMissing id)
  | .ok (some _) => none

theorem runner_lacking {stage : Stage σ} {id : String} {stack : CallStack} (depth : Nat) {w : Watch}
    {c : Clock} {s : World σ} {e : Failure} (apart : stack.contains id = false)
    (lacks : lacking stage s.desk id = some e) :
    ∃ lines, runner stage id stack depth w c s = (.done (.error e), c, s.say lines) := by
  have hrunner : runner stage id stack depth w c s =
      enter stage (nested stage (stage.scenarios.ids s.desk).length) id stack depth w c s := rfl
  rw [hrunner]
  unfold enter
  rw [if_neg (by simp [apart])]
  rcases hload : stage.scenarios.load s.desk id with ⟨answer, lines⟩
  rw [Timed.bind_of_done (Timed.desk_apply ..), hload]
  rw [lacking, hload] at lacks
  refine ⟨lines, ?_⟩
  rcases answer with e' | _ | scenario
  · cases lacks
    rfl
  · cases lacks
    rfl
  · cases lacks

end Play

namespace SessionStore

/-- A store that does not fail as a login does. -/
def Loginless (store : SessionStore) : Prop :=
  ∀ d key session id reason, (store.put d key session).1 ≠ .error (.login id reason)

theorem loginless_memory : memory.Loginless := by
  intro d key session id reason h
  cases h

theorem loginless_files (root : Disk.Path) : (files root).Loginless := by
  intro d key session id reason h
  simp only [files, putFile] at h
  cases hkey : checkKey key with
  | error e =>
    rw [hkey] at h
    cases h
    unfold checkKey at hkey
    split at hkey
    · cases hkey
    split at hkey <;> cases hkey
  | ok _ =>
    rw [hkey] at h
    simp only at h
    split at h
    · cases h
    split at h
    · cases h
    split at h <;> cases h

end SessionStore

namespace Login

def Act.isPlay : Act → Bool
  | .plays _ => true
  | _ => false

def Act.isPut : Act → Bool
  | .puts .. => true
  | _ => false

/-- What holds of the acts `acts` from `x` to `y` by which it was made sure of a login, with the result. -/
structure Lawful (stage : Stage σ) (runner : Runner σ) (stack : CallStack) (login : LoginTask)
    (acts : List Act) (x : Clock × World σ × Trace) (r : Except Failure Unit)
    (y : Clock × World σ × Trace) : Prop where
  /-- The login scenario is played at most once. -/
  playsOnce : acts.countP Act.isPlay ≤ 1
  /-- It is played exactly if nothing failed up to the check, and that said no. -/
  plays : (∃ answer, .plays answer ∈ acts) ↔ ∃ restored rest,
    deeds acts = .loads (.ok restored) :: .visits (.ok ()) :: .checks (.ok false) :: rest
  /-- The ways to succeed are that the check says yes, and that all goes well after a check that said no. -/
  succeeds : r = .ok () ↔
    (∃ restored, deeds acts = [.loads (.ok restored), .visits (.ok ()), .checks (.ok true)]) ∨
    ∃ restored report session, report.settle login.loginScenario = .ok () ∧
      deeds acts = [.loads (.ok restored), .visits (.ok ()), .checks (.ok false), .plays (.ok report),
        .snapshots (.ok session), .puts (key stage login.stateName) session (.ok ()), .visits (.ok ())]
  /-- A session is put at most once. -/
  putsOnce : acts.countP Act.isPut ≤ 1
  /-- It is put under the key of the login, it is the one taken last, and the login had gone well. -/
  puts : ∀ k session answer, .puts k session answer ∈ acts → k = key stage login.stateName ∧
    ∃ restored report rest, report.settle login.loginScenario = .ok () ∧
      deeds acts = .loads (.ok restored) :: .visits (.ok ()) :: .checks (.ok false) :: .plays (.ok report) ::
        .snapshots (.ok session) :: .puts k session answer :: rest
  /-- Where the result is that the login failed none was put, unless it is the store that failed so. -/
  unwritten : ∀ id reason, r = .error (.login id reason) →
    ∀ k session answer, .puts k session answer ∈ acts → answer = r
  untouched : stage.sessions.Loginless → ∀ id reason, r = .error (.login id reason) →
    acts.countP Act.isPut = 0
  /-- The failure of the login scenario, and what becomes of it. -/
  fails : ∀ answer e, .plays answer ∈ acts → settled login.loginScenario answer = .error e →
    r = .error (if e.isFatal = true ∨ e = .cancelled then e else .login login.loginScenario e.message)
  /-- A login scenario that is missing or cannot be read has failed with just that. -/
  lacks : runner = Play.runner stage → stack.contains login.loginScenario = false →
    ∀ e, Play.lacking stage x.2.1.desk login.loginScenario = some e →
      ∀ answer, .plays answer ∈ acts → answer = .error e
  phases : phases acts ∈ [[.checking], [.checking, .authenticated], [.checking, .loggingIn],
    [.checking, .loggingIn, .failed], [.checking, .loggingIn, .authenticated]]
  /-- The last phase tells of a success. -/
  authenticated : (Login.phases acts).getLast? = some .authenticated ↔ r = .ok ()
  /-- The phases are what is noted as such. -/
  noted : marked y.2.2 = marked x.2.2 ++ (Login.phases acts).map fun phase => "🔐 " ++ phase.text

namespace Course

variable {k : Session.Key} {scenario : String} {acts : List Act} {r : Except Failure Unit}

theorem playsOnce (h : Course k scenario acts r) : acts.countP Act.isPlay ≤ 1 := by
  cases h <;> simp [playing, seeking, Act.isPlay, List.countP_cons]

theorem putsOnce (h : Course k scenario acts r) : acts.countP Act.isPut ≤ 1 := by
  cases h <;> simp [playing, seeking, Act.isPut, List.countP_cons]

theorem plays (h : Course k scenario acts r) : (∃ answer, .plays answer ∈ acts) ↔ ∃ restored rest,
    deeds acts = .loads (.ok restored) :: .visits (.ok ()) :: .checks (.ok false) :: rest := by
  cases h <;> simp [playing, seeking, deeds]

theorem succeeds (h : Course k scenario acts r) : r = .ok () ↔
    (∃ restored, deeds acts = [.loads (.ok restored), .visits (.ok ()), .checks (.ok true)]) ∨
    ∃ restored report session, report.settle scenario = .ok () ∧
      deeds acts = [.loads (.ok restored), .visits (.ok ()), .checks (.ok false), .plays (.ok report),
        .snapshots (.ok session), .puts k session (.ok ()), .visits (.ok ())] := by
  cases h <;> simp_all [playing, seeking, deeds]

theorem puts (h : Course k scenario acts r) : ∀ k' session answer, .puts k' session answer ∈ acts →
    k' = k ∧ ∃ restored report rest, report.settle scenario = .ok () ∧
      deeds acts = .loads (.ok restored) :: .visits (.ok ()) :: .checks (.ok false) :: .plays (.ok report) ::
        .snapshots (.ok session) :: .puts k' session answer :: rest := by
  cases h <;> simp_all [playing, seeking, deeds]

theorem unwritten (h : Course k scenario acts r) : ∀ id reason, r = .error (.login id reason) →
    ∀ k' session answer, .puts k' session answer ∈ acts → answer = r := by
  cases h <;> simp_all [playing, seeking]

theorem fails (h : Course k scenario acts r) : ∀ answer e, .plays answer ∈ acts →
    settled scenario answer = .error e →
    r = .error (if e.isFatal = true ∨ e = .cancelled then e else .login scenario e.message) := by
  intro answer e hplay hfails
  have settles {report : Report} (hreport : report.settle scenario = .ok ())
      (hanswer : answer = .ok report) : False := by
    rw [hanswer] at hfails
    exact absurd (hreport.symm.trans hfails) (by simp)
  cases h with
  | unloaded | unvisited | unchecked | found => simp [seeking] at hplay
  | @broken restored answer' e' fails ends =>
    obtain rfl : answer = answer' := by simpa [playing, seeking] using hplay
    cases fails.symm.trans hfails
    rw [if_pos ends]
  | @failed restored answer' e' fails mild =>
    obtain rfl : answer = answer' := by simpa [playing, seeking] using hplay
    cases fails.symm.trans hfails
    rw [if_neg mild]
  | unshot hreport => exact (settles hreport (by simpa [playing, seeking] using hplay)).elim
  | unsaved hreport => exact (settles hreport (by simpa [playing, seeking] using hplay)).elim
  | unreturned hreport => exact (settles hreport (by simpa [playing, seeking] using hplay)).elim
  | loggedIn hreport => exact (settles hreport (by simpa [playing, seeking] using hplay)).elim

theorem phases (h : Course k scenario acts r) : Login.phases acts ∈ [[.checking], [.checking, .authenticated],
    [.checking, .loggingIn], [.checking, .loggingIn, .failed], [.checking, .loggingIn, .authenticated]] := by
  cases h <;> simp [playing, seeking, Login.phases]

theorem authenticated (h : Course k scenario acts r) :
    (Login.phases acts).getLast? = some .authenticated ↔ r = .ok () := by
  cases h <;> simp [playing, seeking, Login.phases]

/-- What comes before the playing. -/
theorem before_play (h : Course k scenario acts r) {answer : Except Failure Report}
    (hplay : .plays answer ∈ acts) : ∃ restored rest,
      acts = (seeking restored ++ [.checks (.ok false), .enters .loggingIn]) ++ .plays answer :: rest := by
  cases h with
  | unloaded | unvisited | unchecked | found => simp [seeking] at hplay
  | broken | failed | unshot | unsaved | unreturned | loggedIn =>
    simp_all [playing, seeking]

end Course

variable {stage : Stage σ} {place : Place} {runner : Runner σ} {stack : CallStack} {login : LoginTask}
  {timeout : Nat} {w : Watch}

theorem Happens.lacks {k : Session.Key} {acts : List Act} {r : Except Failure Unit}
    {x y : Clock × World σ × Trace} {e : Failure} {answer : Except Failure Report}
    (h : Happens stage place (Play.runner stage) stack login timeout w acts x y)
    (course : Course k login.loginScenario acts r) (apart : stack.contains login.loginScenario = false)
    (lacks : Play.lacking stage x.2.1.desk login.loginScenario = some e) (hplay : .plays answer ∈ acts) :
    answer = .error e := by
  obtain ⟨restored, rest, rfl⟩ := course.before_play hplay
  obtain ⟨z, before, after⟩ := h.split
  obtain ⟨z', y', idle, does, -⟩ := after.first
  have hdesk : z'.2.1.desk = x.2.1.desk :=
    idle.beside.desk.trans (before.desk (by simp [seeking, Act.spares]))
  cases does with
  | plays ran =>
    rw [← hdesk] at lacks
    obtain ⟨lines, refused⟩ := Play.runner_lacking place.depth apart lacks
    rw [refused] at ran
    cases ran
    rfl

/-- What a put came to is what the store answered. -/
theorem Happens.answered {acts : List Act} {x y : Clock × World σ × Trace} {k : Session.Key}
    {session : SavedSession} {answer : Except Failure Unit}
    (h : Happens stage place runner stack login timeout w acts x y) (put : .puts k session answer ∈ acts) :
    ∃ d, (stage.sessions.put d k session).1 = answer := by
  obtain ⟨before, after, rfl⟩ := List.append_of_mem put
  obtain ⟨z, -, happens⟩ := h.split
  obtain ⟨z', y', -, does, -⟩ := happens.first
  cases does with
  | @puts k session answer desk lines c s t put => exact ⟨s.desk, by rw [put]⟩

theorem Happens.untouched {k : Session.Key} {acts : List Act} {r : Except Failure Unit}
    {x y : Clock × World σ × Trace} (h : Happens stage place runner stack login timeout w acts x y)
    (course : Course k login.loginScenario acts r) (loginless : stage.sessions.Loginless) {id reason : String}
    (failed : r = .error (.login id reason)) : acts.countP Act.isPut = 0 := by
  rw [List.countP_eq_zero]
  intro a ha hput
  cases a with
  | puts k' session answer =>
    obtain ⟨d, hanswer⟩ := h.answered ha
    rw [course.unwritten id reason failed k' session answer ha, failed] at hanswer
    exact loginless d k' session id reason hanswer
  | _ => cases hput

/-- Making sure of a login in a run that is not cancelled comes to its end, by acts that follow its law:
whatever the stage, the runner and the moment are. -/
theorem ensure_lawful (stage : Stage σ) (runner : Runner σ) (place : Place) (stack : CallStack)
    (login : LoginTask) (timeout : Nat) (w : Watch) (c : Clock) (s : World σ) (t : Trace)
    (ends : Maintains (fun _ => True) Whatever (runner login.loginScenario stack place.depth))
    (free : w.deadline = none)
    (calm : ((ensure stage runner place stack login timeout).run w c (s, t)).2.1.isCancelled = false) :
    ∃ r y acts, (ensure stage runner place stack login timeout).run w c (s, t) = (.done r, y) ∧
      Happens stage place runner stack login timeout w acts (c, s, t) y ∧
      Lawful stage runner stack login acts (c, s, t) r y := by
  obtain ⟨r, y, acts, ran, happens, course⟩ :=
    course_of_calm stage place runner stack login timeout ends free calm
  refine ⟨r, y, acts, ran, happens, ?_⟩
  exact {
    playsOnce := course.playsOnce
    plays := course.plays
    succeeds := course.succeeds
    putsOnce := course.putsOnce
    puts := course.puts
    unwritten := course.unwritten
    untouched := fun loginless _ _ failed => happens.untouched course loginless failed
    fails := course.fails
    lacks := by
      rintro rfl apart e lacks answer hplay
      exact happens.lacks course apart lacks hplay
    phases := course.phases
    authenticated := course.authenticated
    noted := happens.marked }

/-- The login of a page that is never that of one who is logged in. -/
def refusing : LoginTask := ⟨"http://app.test/login", "a", "default", none, "login"⟩

theorem ensure_lawful_refusing : ∃ y acts,
    (ensure (.turnedAway [Run.idling]) (Play.runner (.turnedAway [Run.idling])) ⟨"r", 0, 0⟩ (.root "r")
      refusing 100).run .none .start (.ofPage () Preflight.nowhere, .empty) = (.done (.ok ()), y) ∧
    Lawful (.turnedAway [Run.idling]) (Play.runner (.turnedAway [Run.idling])) (.root "r") refusing acts
      (.start, .ofPage () Preflight.nowhere, .empty) (.ok ()) y ∧
    phases acts = [.checking, .loggingIn, .authenticated] := by
  have hran : ((ensure (.turnedAway [Run.idling]) (Play.runner (.turnedAway [Run.idling])) ⟨"r", 0, 0⟩
      (.root "r") refusing 100).run .none .start (.ofPage () Preflight.nowhere, .empty)).1 = .done (.ok ()) ∧
      ((ensure (.turnedAway [Run.idling]) (Play.runner (.turnedAway [Run.idling])) ⟨"r", 0, 0⟩
        (.root "r") refusing 100).run .none .start (.ofPage () Preflight.nowhere, .empty)).2.1.isCancelled =
          false ∧
      (marked ((ensure (.turnedAway [Run.idling]) (Play.runner (.turnedAway [Run.idling])) ⟨"r", 0, 0⟩
        (.root "r") refusing 100).run .none .start (.ofPage () Preflight.nowhere, .empty)).2.2.2).length =
          3 := by decide +kernel
  obtain ⟨r, y, acts, hrun, -, lawful⟩ := ensure_lawful (.turnedAway [Run.idling])
    (Play.runner (.turnedAway [Run.idling])) ⟨"r", 0, 0⟩ (.root "r") refusing 100 .none .start
    (.ofPage () Preflight.nowhere) .empty (Play.runner_ends _ _ _ _).whatever rfl hran.2.1
  rw [hrun] at hran
  obtain ⟨hr, -, hmarked⟩ := hran
  cases hr
  refine ⟨y, acts, hrun, lawful, ?_⟩
  have hlast := lawful.authenticated.mpr rfl
  have hlength : (phases acts).length = 3 := by
    rw [← hmarked, lawful.noted]
    simp [marked, Trace.empty]
  have hphases := lawful.phases
  simp only [List.mem_cons, List.not_mem_nil, or_false] at hphases
  rcases hphases with hp | hp | hp | hp | hp <;> simp_all

end Login

end Rehearsal
