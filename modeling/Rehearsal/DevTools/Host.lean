import Rehearsal.Config
import Rehearsal.DevTools.Tab
import Rehearsal.Run.Prepared
import Rehearsal.Run.World

/-! # Hosts of browsers

How a browser is got hold of: one that already listens on a port is connected to and left running
afterwards; otherwise one is launched for the run alone, and closed after it.
-/
namespace Rehearsal.DevTools

/-- The program of a browser, if one is named, and the arguments it is launched with. -/
structure LaunchPlan where
  executable : Option Disk.Path
  arguments : List String
deriving DecidableEq, Repr

inductive LaunchFault where
  /-- No browser is named, and none is found. -/
  | unknownBrowser (reason : String)
  | failed (reason : String)
deriving DecidableEq, Repr

/-- The machine on which browsers run. -/
structure Host (π : Type) where
  connect : (port : Nat) → Call π (Except String Unit)
  launch : LaunchPlan → Call π (Except LaunchFault Unit)
  endpoint : Endpoint π

/-- A machine on which no browser is to be had. -/
def Host.bare : Host Unit where
  connect _ := return .error "Received no response from the chromium instance."
  launch plan := return .error (if plan.executable.isSome
    then .failed "No such file or directory (os error 2)"
    else .unknownBrowser "Could not auto detect a chrome executable")
  endpoint := {
    send := fun _ => return .error (refusal "no page")
    address := return "" }

namespace LaunchPlan

def ofConfig (c : Config) : LaunchPlan where
  executable := c.chromeExecutable
  arguments :=
    ["--disable-gpu", "--no-sandbox", "--disable-dev-shm-usage"] ++ c.browserArgs ++
      (c.userDataDir.map ("--user-data-dir=" ++ ·)).toList ++ ["--window-size=1280,720"] ++
      (if c.headless then ["--headless=new"] else [])

end LaunchPlan

namespace Host

variable {π : Type} (host : Host π)

/-- A new browser takes a moment until it can be worked with. -/
def settleMillis : Nat := 300

def join (port : Nat) : Call (Tab π) (Except Obstacle Unit) := do
  Call.say (.info ("正在连接到浏览器: http://localhost:" ++ Text.decimal port))
  match ← Tab.onPage (host.connect port) with
  | .error reason => do
    Call.say (.error ("连接浏览器失败: " ++ reason))
    return .error (.unreachable reason)
  | .ok _ => do
    Call.say (.debug "浏览器连接成功")
    Call.wait settleMillis
    return .ok ()

def obstacle : LaunchFault → Obstacle
  | .unknownBrowser reason => .unknownBrowser reason
  | .failed reason => .launch reason

def start (c : Config) : Call (Tab π) (Except Obstacle Unit) := do
  Call.say (.info (if c.headless then "🚀 启动无头浏览器..." else "🚀 启动有头浏览器..."))
  match c.chromeExecutable with
  | some path => Call.say (.debug ("使用浏览器: " ++ path))
  | none => pure ()
  match ← Tab.onPage (host.launch (.ofConfig c)) with
  | .error fault => do
    Call.say (.error (obstacle fault).message)
    return .error (obstacle fault)
  | .ok _ => do
    Call.say (.debug "浏览器启动成功")
    Call.wait settleMillis
    return .ok ()

def openSession (c : Config) : Call (Tab π) (Except Obstacle Unit) :=
  match c.browserDebugPort with
  | some port => host.join port
  | none => host.start c

def release (c : Config) : Call (Tab π) Unit := do
  if c.browserDebugPort.isNone then
    Call.say (.debug "正在关闭浏览器...")
    match ← Tab.ask host.endpoint .closeBrowser with
    | .error reason => Call.say (.warn ("关闭浏览器失败: " ++ reason))
    | .ok _ => pure ()
  Call.say (.info "🔒 浏览器会话已释放")

def openTab (c : Config) : Call (Tab π) (Except Obstacle Unit) := do
  match ← host.openSession c with
  | .error o => return .error o
  | .ok _ => do
    match ← Tab.openPage host.endpoint with
    | .error _ => do
      host.release c
      return .error .noPage
    | .ok _ => do
      match ← Tab.attach host.endpoint with
      | .error fault => do
        host.release c
        return .error (.page fault)
      | .ok _ => return .ok ()

def closeTab (c : Config) : Call (Tab π) Unit := do
  match ← Tab.close host.endpoint with
  | .error fault => Call.say (.warn ("⚠️ 关闭页面失败: " ++ fault.message))
  | .ok _ => pure ()
  host.release c

end Host

end Rehearsal.DevTools
