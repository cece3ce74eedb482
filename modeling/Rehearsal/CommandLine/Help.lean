import Rehearsal.CommandLine.Arguments

/-! # Help

The texts that the program shows about itself, as lines.
-/
namespace Rehearsal.CommandLine

def programName : String := "scenario-runner"

def versionLine : String := programName ++ " 0.1.0"

namespace Topic

def about : Topic → String
  | program => "按 JSON DSL 执行浏览器场景"
  | run => "执行一个场景"
  | validate => "只加载并检查场景及其引用的子场景"
  | help => "Print this message or the help of the given subcommand(s)"

def usage : Topic → String
  | program => "[OPTIONS] <COMMAND>"
  | run => "run [OPTIONS] <SCENARIO_ID>"
  | validate => "validate [OPTIONS] <SCENARIO_ID>"
  | help => "help [COMMAND]..."

/-- The options in the order in which they are shown. -/
def switches : Topic → List Switch
  | program => [.config, .verbose, .help, .version]
  | run => [.baseUrl, .config, .headed, .verbose, .timeout, .project, .port, .events, .help]
  | validate => [.config, .verbose, .help]
  | help => []

/-- The arguments that are no options, with what is said about them. -/
def arguments : Topic → List (String × String)
  | program => []
  | run | validate => [("<SCENARIO_ID>", "")]
  | help => [("[COMMAND]...", "Print help for the subcommand(s)")]

def orders : Topic → List (String × String)
  | program => [("run", about run), ("validate", about validate), ("help", about help)]
  | _ => []

end Topic

namespace Switch

/-- What is said about an option; `env` is the environment's value for the configuration. -/
def about (env : String) : Switch → String
  | config => "TOML 配置文件 [env: RUNNER_CONFIG=" ++ env ++ "]"
  | verbose => "显示详细日志"
  | help => "Print help"
  | version => "Print version"
  | baseUrl => "在第一步之前打开该地址"
  | headed => "显示浏览器窗口"
  | timeout => "步骤默认超时（毫秒）"
  | project => "覆盖配置中的项目 id"
  | port => "连接该调试端口上的浏览器"
  | events => "把进度事件逐行以 JSON 写到标准输出"

/-- An option with its value, as it is shown. -/
def shown (s : Switch) : String :=
  (match s.short? with
    | some c => "-" ++ String.singleton c ++ ", "
    | none => "    ") ++ "--" ++ s.long ++
  match s.valueName? with
  | some name => " <" ++ name ++ ">"
  | none => ""

end Switch

/-- Rows of two columns, the second one starting two blanks after the longest entry of the first. -/
def columns (rows : List (String × String)) : List String :=
  let width := (rows.map fun (left, _) => left.length).foldl max 0
  rows.map fun (left, right) =>
    "  " ++ left ++ String.ofList (List.replicate (width + 2 - left.length) ' ') ++ right

def section_ (heading : String) (rows : List (String × String)) : List String :=
  match rows with
  | [] => []
  | rows => ["", heading] ++ columns rows

def helpLines (topic : Topic) (env : String) : List String :=
  [topic.about, "", "Usage: " ++ programName ++ " " ++ topic.usage] ++
    section_ "Commands:" topic.orders ++ section_ "Arguments:" topic.arguments ++
    section_ "Options:" (topic.switches.map fun s => (s.shown, s.about env))

end Rehearsal.CommandLine
