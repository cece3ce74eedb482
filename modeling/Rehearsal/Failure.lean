import Rehearsal.Scenario.Action
import Rehearsal.Session.Key
import Rehearsal.Text.Digits

/-! # Failures

What can go wrong, by cause. Two kinds are fatal: a reference of scenarios to one another in a circle
and a fault of a document. Every other failure is a matter for the options of the step it befell.
-/
namespace Rehearsal

/-- A fault of the browser or of the page in it. -/
inductive BrowserFault where
  | noSuchElement (selector : String)
  | script (message : String)
  | navigation (url reason : String)
  | protocol (message : String)
deriving DecidableEq, Repr

namespace BrowserFault

def message : BrowserFault → String
  | noSuchElement selector => "未找到元素: " ++ selector
  | script message => "页面脚本异常: " ++ message
  | navigation url reason => "导航到 " ++ url ++ " 失败: " ++ reason
  | protocol message => "浏览器协议错误: " ++ message

end BrowserFault

/-- A fault of a document, the outer ones telling where the inner ones are. -/
inductive DocumentFault where
  | unknownAction (word : String)
  | missingField (action : Action) (field : String)
  | stateName (action : Action) (fault : Session.SegmentFault)
  | waitValue (value : String)
  | noId
  | projectId (scenario : String) (fault : Session.SegmentFault)
  | inStep (scenario : String) (index : Nat) (fault : DocumentFault)
  | unreadable (reason : String)
  | inFile (path : String) (fault : DocumentFault)
  | scenarioId (id : String)
  | stated (text : String)
deriving DecidableEq, Repr

namespace DocumentFault

/-- The number of a step counts from one. -/
def message : DocumentFault → String
  | unknownAction word => "未知动作 '" ++ word ++ "'"
  | missingField action field => action.word ++ " 缺少必填字段 " ++ field
  | stateName action fault => action.word ++ ": " ++ fault.message
  | waitValue value => "wait 的值 '" ++ value ++ "' 不是有效的毫秒数"
  | noId => "场景缺少 id"
  | projectId scenario fault => "场景 " ++ scenario ++ ": " ++ fault.message
  | inStep scenario index fault =>
    "场景 " ++ scenario ++ " 第 " ++ Text.decimal (index + 1) ++ " 步: " ++ fault.message
  | unreadable reason => "场景文档格式错误: " ++ reason
  | inFile path fault => path ++ ": " ++ fault.message
  | scenarioId id => "非法的场景 id: '" ++ id ++ "'"
  | stated text => text

end DocumentFault

/-- Why a step, or a whole run, failed. -/
inductive Failure where
  | elementNotFound (candidates : List String) (detail : String)
  | timeout (action : String) (millis : Nat)
  | assertion (selector expected actual : String)
  | script (message : String)
  | cyclicReference (chain : List String)
  | login (scenario reason : String)
  | document (fault : DocumentFault)
  | scenarioMissing (id : String)
  | nested (scenario reason : String)
  | resource (reference reason : String)
  | sessionStore (reason : String)
  | cancelled
  | browser (fault : BrowserFault)
  | disk (reason : String)
  | json (reason : String)
deriving DecidableEq, Repr

namespace Failure

def message : Failure → String
  | elementNotFound candidates detail =>
    "元素未找到: 已依次尝试 [" ++ Text.joinWith ", " candidates ++ "] (" ++ detail ++ ")"
  | timeout action millis => "动作 " ++ action ++ " 超时 (" ++ Text.decimal millis ++ "ms)"
  | assertion selector expected actual =>
    "断言失败: " ++ selector ++ " 的文本不包含 '" ++ expected ++ "' (实际: '" ++ actual ++ "')"
  | script message => "脚本执行失败: " ++ message
  | cyclicReference chain => "场景循环引用: " ++ Text.joinWith " -> " chain
  | login scenario reason => "登录场景 " ++ scenario ++ " 未能完成认证: " ++ reason
  | document fault => "配置错误: " ++ fault.message
  | scenarioMissing id => "场景不存在: " ++ id
  | nested scenario reason => "子场景 " ++ scenario ++ " 执行失败: " ++ reason
  | resource reference reason => "资源解析失败 (" ++ reference ++ "): " ++ reason
  | sessionStore reason => "认证状态存储错误: " ++ reason
  | cancelled => "运行已取消"
  | browser fault => fault.message
  | disk reason => "IO 错误: " ++ reason
  | json reason => "JSON 解析失败: " ++ reason

/-- A fatal failure ends the whole run, whatever the options of the steps say. -/
def isFatal : Failure → Bool
  | cyclicReference _ | document _ => true
  | _ => false

/-- A fault met while running a script: an exception of the page is the script's own failure. -/
def ofScript : BrowserFault → Failure
  | .script message => .script message
  | fault => .browser fault

end Failure

end Rehearsal
