import Rehearsal.Browser.Locate
import Rehearsal.Run.Stage

/-! # Logging in

Saving and restoring the session of a login, and making sure of one: restore what is saved, look at a
page that needs the login, and if it is not there play the scenario that logs in, save the session and
look again.
-/
namespace Rehearsal

namespace Login

variable {σ : Type}

inductive Phase where
  | checking
  | loggingIn
  | authenticated
  | failed
deriving DecidableEq, Repr

def Phase.text : Phase → String
  | checking => "检查登录状态"
  | loggingIn => "执行登录"
  | authenticated => "已认证"
  | failed => "认证失败"

def key (stage : Stage σ) (stateName : String) : Session.Key := ⟨stage.settings.projectId, stateName⟩

def enter (stage : Stage σ) (place : Place) (phase : Phase) : Work σ Unit :=
  Work.note stage place ("🔐 " ++ phase.text)

def save (stage : Stage σ) (place : Place) (stateName : String) : Work σ Unit := do
  let key := key stage stateName
  let session ← Work.ask stage.browser.snapshot
  Work.ofWorld do
    let (answer, desk, lines) := stage.sessions.put (← Timed.desk) key session
    Timed.setDesk desk
    Timed.say lines
    return answer
  Work.say [.info ("💾 认证状态已保存: " ++ key.text ++ " (" ++
    Text.decimal session.cookies.length ++ " 个 cookie)")]
  Work.note stage place ("认证状态已保存: " ++ key.text)
  Work.setSelector ("save_auth_state:" ++ stateName)

/-- Restores a saved session; without one there is nothing to do, and the answer is no. -/
def load (stage : Stage σ) (place : Place) (stateName : String) : Work σ Bool := do
  let key := key stage stateName
  Work.setSelector ("load_auth_state:" ++ stateName)
  let found ← Work.ofWorld do return stage.sessions.get (← Timed.desk) key
  match found with
  | some session =>
    Work.ask (stage.browser.restore session)
    Work.say [.info ("🔑 已恢复认证状态: " ++ key.text)]
    Work.note stage place ("已恢复认证状态: " ++ key.text)
    return true
  | none =>
    Work.note stage place ("认证状态 " ++ key.text ++ " 不存在，跳过")
    return false

/-- Goes to a page within a time limit. -/
def visit (stage : Stage σ) (url : String) (timeout : Nat) : Work σ Unit :=
  Work.ofWorld do
    match ← Timed.within timeout (stage.browser.goto url).run with
    | some (.ok _) => return .ok ()
    | some (.error fault) => return .error (.browser fault)
    | none => return .error (.timeout Action.ensureAuth.word timeout)

/-- One is logged in where the address does not look like that of a login page and, if there is
anything to look for, it can be seen. -/
def check (stage : Stage σ) (place : Place) (login : LoginTask) (timeout : Nat) : Work σ Bool := do
  let current ← Work.ask stage.browser.currentUrl
  if ! login.loginUrlPattern.isEmpty && Text.contains current login.loginUrlPattern then do
    Work.note stage place ("当前位于登录页: " ++ current)
    return false
  else
    match login.loggedIn with
    | none => return true
    | some candidates =>
      let budget := min stage.settings.authCheckTimeout timeout
      match ← Work.lift (locate stage.browser candidates .visible budget) with
      | .ok located => do
        Work.note stage place ("已登录标记可见: " ++ located.selector)
        return true
      | .error (.elementNotFound _ _) => do
        Work.note stage place "未发现已登录标记"
        return false
      | .error e => throw e

def perform (runner : Runner σ) (place : Place) (stack : CallStack) (id : String) : Work σ Unit := do
  let report ← Work.ofWorld (runner id stack place.depth)
  Work.settle report id

def ensure (stage : Stage σ) (runner : Runner σ) (place : Place) (stack : CallStack)
    (login : LoginTask) (timeout : Nat) : Work σ Unit := do
  enter stage place .checking
  let restored ← load stage place login.stateName
  visit stage login.checkUrl timeout
  if ← check stage place login timeout then
    enter stage place .authenticated
    let how := if restored then "restored" else "already"
    Work.setSelector ("ensure_auth:" ++ login.stateName ++ ":" ++ how)
  else
    enter stage place .loggingIn
    Work.say [.info ("🔐 未登录，执行登录场景: " ++ login.loginScenario)]
    match ← Work.try_ (perform runner place stack login.loginScenario) with
    | .error e =>
      if e.isFatal || e = .cancelled then throw e
      else
        enter stage place .failed
        Work.say [.warn ("❌ 登录场景 " ++ login.loginScenario ++ " 失败: " ++ e.message)]
        throw (.login login.loginScenario e.message)
    | .ok _ =>
      save stage place login.stateName
      visit stage login.checkUrl timeout
      enter stage place .authenticated
      Work.setSelector ("ensure_auth:" ++ login.stateName ++ ":logged_in")

end Login

end Rehearsal
