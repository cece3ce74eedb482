import Rehearsal.Page.UiFolder
import Rehearsal.Page.Selector
import Rehearsal.Config
import Rehearsal.Run.Preflight

/-! # Prepared runs

What is asked of the program, and what it takes to grant it: the scenario with its references in
order, the project, and the maps for the project. All this is found out before there is a browser.
-/
namespace Rehearsal

/-- The scenario to be played, and the address to go to before it. -/
structure Request where
  scenarioId : String
  baseUrl : Option String
deriving DecidableEq, Repr

structure Prepared where
  scenario : Scenario
  projectId : String
  source : ScenarioSource
  selectors : Selectors

/-- Why there is no run. -/
inductive Obstacle where
  | failure (e : Failure)
  | noScenario (id : String)
  | project (fault : Session.SegmentFault)
  | maps (reason : String)
  | configuration (reason : String)
  /-- No browser answers where one was to be connected to. -/
  | unreachable (reason : String)
  /-- It is not known which browser to launch. -/
  | unknownBrowser (reason : String)
  | launch (reason : String)
  | noPage
  | page (fault : BrowserFault)
deriving DecidableEq, Repr

namespace Obstacle

def message : Obstacle → String
  | failure e => e.message
  | noScenario id => "场景不存在: " ++ id
  | project fault => fault.message
  | maps reason | configuration reason | unreachable reason => reason
  | unknownBrowser reason => "配置浏览器失败: " ++ reason
  | launch reason => "启动浏览器失败: " ++ reason
  | noPage => "创建页面失败"
  | page fault => fault.message

end Obstacle

namespace Prepared

/-- The scenario itself, whose references are in order. -/
def find (source : ScenarioSource) (desk : Desk) (id : String) :
    Except Obstacle Scenario × List LogLine :=
  match source.load desk id with
  | (.error e, lines) => (.error (.failure e), lines)
  | (.ok none, lines) => (.error (.noScenario id), lines)
  | (.ok (some scenario), lines) =>
    match Preflight.check source desk scenario with
    | (.error e, more) => (.error (.failure e), lines ++ more)
    | (.ok _, more) => (.ok scenario, lines ++ more)

/-- The scenario's own project, or else the one configured. -/
def projectOf (config : Config) (scenario : Scenario) : Except Obstacle String :=
  let project := scenario.projectId.getD config.projectId
  match Session.checkSegment "project_id" project with
  | .ok _ => .ok project
  | .error fault => .error (.project fault)

/-- The map that a scenario is bound to, by its name; a line is said when it is not there. -/
def defaultMap (maps : UiMapSet) (scenario : Scenario) : Option String × List LogLine :=
  match scenario.uiMapId with
  | none => (none, [])
  | some id =>
    match maps.findById? id with
    | some m => (some m.name, [])
    | none => (none, [.warn ("⚠️ 场景绑定的 UI Map " ++ id ++ " 不存在")])

/-- Everything but the scenario. -/
def furnish (config : Config) (desk : Desk) (source : ScenarioSource) (scenario : Scenario) :
    Except Obstacle Prepared × List LogLine :=
  match projectOf config scenario with
  | .error o => (.error o, [])
  | .ok projectId =>
    match UiMapSet.loadFolder desk.disk config.uiMapsDir (some projectId) with
    | (.error reason, lines) => (.error (.maps reason), lines)
    | (.ok maps, lines) =>
      let (bound, more) := defaultMap maps scenario
      (.ok ⟨scenario, projectId, source, ⟨maps, bound⟩⟩,
        lines ++ .info ("🗺️ 已加载 " ++ Text.decimal maps.size ++ " 个 UI Map") :: more)

end Prepared

def prepare (config : Config) (desk : Desk) (request : Request) :
    Except Obstacle Prepared × List LogLine :=
  let source := ScenarioSource.folder config.scenariosDir
  match Prepared.find source desk request.scenarioId with
  | (.error o, lines) => (.error o, lines)
  | (.ok scenario, lines) =>
    let scenario := match request.baseUrl with
      | some url => scenario.withBaseUrl url
      | none => scenario
    let (answer, more) := Prepared.furnish config desk source scenario
    (answer, lines ++ more)

end Rehearsal
