import Rehearsal.DevTools.Command
import Rehearsal.DevTools.Cookie
import Rehearsal.DevTools.Keyboard
import Rehearsal.DevTools.PageScript
import Rehearsal.DevTools.Traffic

/-! # Tabs

One page of a real browser, worked with commands of the protocol. Elements are looked at, filled and
read by scripts; clicking, typing and pressing keys are done with the events of a mouse and a keyboard.
-/
namespace Rehearsal.DevTools

/-- The page at the other end, its traffic, and whether its notices are still listened to. -/
structure Tab (π : Type) where
  page : π
  traffic : Traffic
  listening : Bool

abbrev Handling (π α : Type) := ExceptT BrowserFault (Call (Tab π)) α

namespace Tab

variable {π α : Type}

def ofPage (page : π) : Tab π := ⟨page, .empty, false⟩

def hear (now : Nat) (tab : Tab π) (n : Notice) : Tab π :=
  if tab.listening then { tab with traffic := tab.traffic.hear now n } else tab

def onPage (call : Call π α) : Call (Tab π) α :=
  call.onPart Tab.page fun page tab => { tab with page }

def lift (call : Call (Tab π) α) : Handling π α := ExceptT.lift call

variable (e : Endpoint π)

def ask (c : Command α) : Call (Tab π) (Except String α) := onPage (e.send c)

/-- A command whose refusal is a fault of the protocol. -/
def order (c : Command α) : Handling π α := ExceptT.mk (do return orProtocol (← ask e c))

/-- Opens a blank page. What the network is told to report before anyone listens does not matter. -/
def openPage : Call (Tab π) (Except String Unit) := do
  match ← ask e (.createTarget "about:blank") with
  | .error text => return .error text
  | .ok _ => do
    let _ ← ask e .enableNetwork
    return .ok ()

/-- Begins to work the page and to listen to its traffic. -/
def attach : Call (Tab π) (Answer Unit) := ExceptT.run (do
  order e .enableNetwork
  lift (Call.modifyPage fun tab => { tab with listening := true })
  lift (Call.say (.debug "Chromium 驱动已接管页面，网络监听已启动")))

def goto (url : String) : Call (Tab π) (Answer Unit) := do
  match ← ask e (.navigate url) with
  | .error text => return .error (.navigation url text)
  | .ok (some reason) => return .error (.navigation url reason)
  | .ok none => return .ok ()

/-- The text for an exception in a script. -/
def exceptionText (text : String) : String :=
  "ExceptionDetails \x7b text: " ++ Text.Quoted.quote text ++ " \x7d"

/-- Runs a script, one that is a function as the call of it. -/
def evaluate (script : String) : Call (Tab π) (Answer Json.Value) := do
  let command : Command Evaluation :=
    if PageScript.isFunction script then .callFunction script else .evaluate script
  match ← ask e command with
  | .error text => return .error (.script text)
  | .ok (.exception text) => return .error (.script (exceptionText text))
  | .ok .undefined => return .ok .null
  | .ok (.value v) => return .ok v

/-- Calls a function in the page and reads what it gives. -/
def call (read : Json.Reading α) (function : String) (args : List Json.Value) : Handling π α := do
  let v ← ExceptT.mk (evaluate e (PageScript.call function args))
  match read v.toTree with
  | .ok a => return a
  | .error refusal => throw (.script refusal.message)

/-- Calls a function that answers false when the element is not there. -/
def callOn (selector function : String) (args : List Json.Value) : Handling π Unit := do
  let found ← call e Json.Reading.bool function (.string selector :: args)
  if ! found then throw (.noSuchElement selector)

def probe (selector : String) : Handling π Presence := do
  match ← call e Json.Reading.string PageScript.probe [.string selector] with
  | "visible" => return .visible
  | "hidden" => return .hidden
  | _ => return .missing

/-- The first element that a selector matches, or nothing if any of the commands is refused. -/
def node? (selector : String) : Call (Tab π) (Except String NodeId) := ExceptT.run (do
  let root ← ExceptT.mk (ask e .document)
  match ← ExceptT.mk (ask e (.querySelector root selector)) with
  | none => throw ("no element for " ++ selector)
  | some node => do
    ExceptT.mk (ask e (.describe node))
    ExceptT.mk (ask e (.resolve node))
    return node)

def find (selector : String) : Handling π NodeId := do
  match ← lift (node? e selector) with
  | .ok node => return node
  | .error _ => throw (.noSuchElement selector)

def scroll (node : NodeId) : Handling π Unit := do
  match ← order e (.scrollIntoView node) with
  | none => return ()
  | some reason => throw (.protocol reason)

/-- Scrolls to an element and tells where it is then. -/
def reach (node : NodeId) : Handling π Point := do
  scroll e node
  match ← order e (.middle node) with
  | some p => return p
  | none => throw (.protocol "Node is either not visible or not an HTMLElement")

def click (node : NodeId) : Handling π Unit := do
  let p ← reach e node
  order e (.mouse .moved p)
  order e (.mouse .pressed p)
  order e (.mouse .released p)

def press (name : String) : Handling π Unit := do
  match Keyboard.key? name with
  | none => throw (.protocol ("Key not found: " ++ name))
  | some key => do
    order e (.key (if Keyboard.writes key then .down else .rawDown) key)
    order e (.key .up key)

def pressAll (delay : Nat) : List Char → Handling π Unit
  | [] => return ()
  | c :: cs => do
    press e (String.singleton c)
    lift (Call.wait delay)
    pressAll delay cs

def select (selector value : String) : Handling π Unit := do
  match ← call e Json.Reading.string PageScript.select [.string selector, .string value] with
  | "ok" => return ()
  | "no_option" => throw (.script (selector ++ " 中没有选项 '" ++ value ++ "'"))
  | _ => throw (.noSuchElement selector)

def readText (selector : String) : Handling π String := do
  match ← call e (Json.Reading.orNull Json.Reading.string) PageScript.readText [.string selector] with
  | some text => return text
  | none => throw (.noSuchElement selector)

def act (selector : String) : Operation → Handling π Unit
  | .click => do
    let node ← find e selector
    scroll e node
    click e node
  | .doubleClick => callOn e selector PageScript.doubleClick []
  | .hover => do
    let p ← reach e (← find e selector)
    order e (.mouse .moved p)
  | .focus => do order e (.focus (← find e selector))
  | .scroll => do scroll e (← find e selector)
  | .check => callOn e selector PageScript.setChecked [.bool true]
  | .uncheck => callOn e selector PageScript.setChecked [.bool false]
  | .fill text => callOn e selector PageScript.fill [.string text]
  | .type text delay => do
    callOn e selector PageScript.clear []
    order e (.focus (← find e selector))
    pressAll e delay text.toList
  | .select value => select e selector value
  | .press key => do
    order e (.focus (← find e selector))
    press e key
  | .setFiles path => do order e (.setFiles [path] (← find e selector))
  | .readText => return ()

def perform (selector : String) (o : Operation) : Handling π (Option String) := do
  match o with
  | .readText => return some (← readText e selector)
  | o => do
    act e selector o
    return none

def screenshot (full : Bool) : Handling π Disk.Bytes := do
  order e .activateTarget
  if full then
    order e .layoutMetrics
    order e .overrideMetrics
  let png ← order e (.capture full)
  if full then order e .clearMetrics
  return png

/-- The storage of the page's origin, when it is a page that can have one. -/
def storage : Handling π (List OriginStorage) := do
  match ← lift (call e OriginStorage.read PageScript.dumpStorage []).run with
  | .ok o => return if Text.startsWith o.origin "http" then [o] else []
  | .error fault => do
    lift (Call.say (.debug ("读取 storage 失败，仅保存 cookie: " ++ fault.message)))
    return []

def snapshot : Handling π SavedSession := do
  let cookies ← order e .getCookies
  return ⟨cookies, ← storage e⟩

/-- The addresses that cannot have cookies. -/
def checkCookieUrl (url : String) : Except String Unit :=
  if Text.startsWith url "data:" then .error "Data URL page can not have cookie"
  else if url = "about:blank" then .error "Blank page can not have cookie"
  else .ok ()

/-- Gives each cookie the address of the page it is set for, unless it has one. -/
def addressed (url : String) (cookies : List Json.Value) : Except String (List Json.Value) := do
  let isWeb := Text.startsWith url "http"
  if ! isWeb then checkCookieUrl url
  cookies.mapM fun cookie =>
    match Cookie.text? cookie "url" with
    | some own => (checkCookieUrl own).map fun _ => cookie
    | none => .ok (if isWeb then Cookie.withUrl cookie url else cookie)

def deleteAll : List Json.Value → Handling π Unit
  | [] => return ()
  | cookie :: rest => do
    order e (.deleteCookies ((Cookie.text? cookie "name").getD ""))
    deleteAll rest

/-- Sets cookies in the place of those with the same names. -/
def setCookies (cookies : List Json.Value) : Handling π Unit := do
  match addressed (← lift (onPage e.address)) cookies with
  | .error text => throw (.protocol text)
  | .ok cookies => do
    deleteAll e cookies
    order e (.setCookies cookies)

/-- The cookies among those kept that can be set again; a line is said about each of the others. -/
def settable : List Json.Value → Handling π (List Json.Value)
  | [] => return []
  | kept :: rest =>
    match Cookie.toSet? kept with
    | .ok cookie => do return cookie :: (← settable rest)
    | .error refusal => do
      lift (Call.say (.warn ("跳过无法还原的 cookie: " ++ refusal.message)))
      settable rest

def storeScript (entry : StorageEntry) : String :=
  "localStorage.setItem(" ++ Text.Quoted.quote entry.name ++ ", " ++
    Text.Quoted.quote entry.value ++ ")"

def storeAll : List StorageEntry → Handling π Unit
  | [] => return ()
  | entry :: rest => do
    let _ ← ExceptT.mk (evaluate e (storeScript entry))
    storeAll rest

/-- Sets the cookies that can be set, and the lasting storage of the page's own origin. -/
def restore (s : SavedSession) : Handling π Unit := do
  let cookies ← settable s.cookies
  if ! cookies.isEmpty then setCookies e cookies
  let url ← lift (onPage e.address)
  storeAll e ((s.origins.filter fun o => Text.startsWith url o.origin).flatMap (·.localEntries))

def takeRequests : Call (Tab π) (List NetworkRequest) := do
  let tab ← Call.page
  Call.setPage { tab with traffic := { tab.traffic with ended := [] } }
  return tab.traffic.ended

def close : Handling π Unit := do
  lift (Call.modifyPage fun tab => { tab with listening := false })
  order e .closePage

/-- The page as a browser. It makes no recordings. -/
def browser : Browser (Tab π) where
  goto := goto e
  currentUrl := do return .ok (← onPage e.address)
  probe selector := probe e selector
  perform selector o := perform e selector o
  evaluate := evaluate e
  screenshot full := screenshot e full
  snapshot := snapshot e
  restore s := restore e s
  takeRequests := takeRequests
  finishRecording := return .ok none
  close := close e

end Tab

end Rehearsal.DevTools
