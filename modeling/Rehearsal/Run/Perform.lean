import Rehearsal.Run.Login
import Rehearsal.Task.Paste

/-! # Performing tasks

How each deed is done with the browser, and what it leaves in the trace of its step.
-/
namespace Rehearsal.Perform

variable {σ : Type}

def find (stage : Stage σ) (candidates : List String) (wanted : Wanted) (timeout : Nat) :
    Work σ Located :=
  Work.ofWorld (locate stage.browser candidates wanted timeout)

def requireFile (path : Disk.Path) : Work σ Unit :=
  Work.ofWorld do
    return if (← Timed.desk).disk.has path then .ok () else .error (.resource path "文件不存在")

def paste (stage : Stage σ) (place : Place) (candidates : List String) (path : Disk.Path)
    (timeout : Nat) : Work σ Unit := do
  let content ← Work.ofWorld do
    match (← Timed.desk).disk.readBytes path with
    | .ok content => return .ok content
    | .error fault => return .error (.resource path fault.message)
  let located ← find stage candidates (.perform .focus) timeout
  let _ ← Work.askScript (stage.browser.evaluate (Paste.script path content))
  Work.note stage place ("🖼️ 已粘贴 " ++ Paste.fileName path ++ " (" ++ Paste.mime path ++ ", " ++
    Text.decimal content.length ++ " 字节) → " ++ located.selector)
  Work.setSelector located.selector

/-- Reads the text of an element into a variable, blanks around it aside. -/
def extract (stage : Stage σ) (place : Place) (candidates : List String) (saveAs : String)
    (timeout : Nat) : Work σ Unit := do
  let located ← find stage candidates (.perform .readText) timeout
  let text := Text.trim (located.output.getD "")
  Work.note stage place (saveAs ++ " = " ++ Text.truncate text 80)
  Work.lift (Timed.modify fun w => { w with scope := w.scope.set saveAs text })
  Work.setSelector located.selector

def deed (stage : Stage σ) (runner : Runner σ) (place : Place) (stack : CallStack) (stem : String)
    (timeout : Nat) : Deed → Work σ Unit
  | .navigate url => do
    Work.note stage place ("🌐 打开 " ++ url)
    Work.ask (stage.browser.goto url)
    Work.setSelector url
  | .element candidates operation => do
    let located ← find stage candidates (.perform operation) timeout
    Work.note stage place (operation.word ++ " → " ++ located.selector)
    Work.setSelector located.selector
  | .waitVisible candidates => do
    let located ← find stage candidates .visible timeout
    Work.note stage place ("元素可见: " ++ located.selector)
    Work.setSelector located.selector
  | .assertText candidates expected => do
    let located ← find stage candidates (.textContains expected) timeout
    Work.note stage place ("✓ " ++ located.selector ++ " 包含 '" ++ expected ++ "'")
    Work.setSelector located.selector
  | .extract candidates saveAs => extract stage place candidates saveAs timeout
  | .sleep millis => do
    Work.note stage place ("等待 " ++ Text.decimal millis ++ "ms")
    Work.lift (Timed.pause millis)
  | .script text => do
    match ← Work.askScript (stage.browser.evaluate text) with
    | .null => pure ()
    | value => Work.note stage place ("脚本返回: " ++ Text.truncate value.compact 200)
  | .screenshot => do
    let png ← Work.ask (stage.browser.screenshot false)
    let stored ← Work.storeScreenshot stage (stem ++ ".png") png
    Work.note stage place ("📸 截图已保存: " ++ stored)
    Work.setScreenshot stored
  | .upload candidates path => do
    requireFile path
    let located ← find stage candidates (.perform (.setFiles path)) timeout
    Work.note stage place ("📎 已上传 " ++ path ++ " → " ++ located.selector)
    Work.setSelector located.selector
  | .pasteImage candidates path => paste stage place candidates path timeout
  | .runScenario id => do
    Work.say [.info ("↪️ 进入子场景: " ++ id)]
    Work.setSelector id
    let report ← Work.ofWorld (runner id stack place.depth)
    Work.settle report id
  | .saveSession stateName => Login.save stage place stateName
  | .loadSession stateName => do
    let _ ← Login.load stage place stateName
  | .ensureLogin login => Login.ensure stage runner place stack login timeout

end Rehearsal.Perform
