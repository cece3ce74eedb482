import Rehearsal.Config
import Rehearsal.Log
import Rehearsal.Run.Outcome
import Rehearsal.Run.Place

/-! # Narration

The log lines that accompany a run from the start of the program to the final count.
-/
namespace Rehearsal.Narration

def rule (mark : Char) : String := String.ofList (List.replicate 60 mark)

def startup (c : Config) : List LogLine :=
  [.info (rule '='), .info "🚀 场景执行器启动", .info ("📁 数据目录: " ++ c.dataDir),
    .info ("⏱️ 默认超时: " ++ Text.decimal c.defaultTimeoutMs ++ "ms"),
    match c.browserDebugPort with
    | some port => .info ("🔌 连接已有浏览器: 端口 " ++ Text.decimal port)
    | none => .info ("🖥️ 启动浏览器: " ++ if c.headless then "无头" else "有界面"),
    .info (rule '=')]

def runStart (runId : String) (s : Scenario) : List LogLine :=
  [.info ("\n" ++ rule '='), .info ("▶️ 运行 " ++ runId ++ " - " ++ s.displayName),
    .info ("📄 共 " ++ Text.decimal s.steps.length ++ " 个步骤"), .info (rule '=')]

/-- A step without a name is told by its target, cut after sixty characters. -/
def stepStart (p : Place) (s : Step) : LogLine :=
  let told := p.text ++ " ▶ " ++ s.action.word
  match s.name with
  | some name => .info (told ++ " (" ++ name ++ ")")
  | none =>
    match s.instruction.target? with
    | some target => .info (told ++ " " ++ Text.truncate target 60)
    | none => .info told

def stepEnd (p : Place) (o : Outcome) : LogLine :=
  match o.status with
  | .success => .info (p.text ++ " ✓ 完成 (" ++ Text.decimal o.durationMs ++ "ms)")
  | .failed =>
    .warn (p.text ++ " ✗ 失败 (" ++ Text.decimal o.durationMs ++ "ms): " ++ o.error.getD "未知错误")
  | .skipped => .info (p.text ++ " ⏭️ 跳过")

def runEnd (r : RunRecord) : List LogLine :=
  let line := rule '─'
  [.info ("\n" ++ line),
    match r.status with
    | .completed => .info ("✅ 运行 " ++ r.runId ++ " 完成")
    | .failed => .error ("❌ 运行 " ++ r.runId ++ " 失败" ++ (r.error.map (": " ++ ·)).getD "")
    | .cancelled => .warn ("⏹️ 运行 " ++ r.runId ++ " 已取消"),
    .info line]

/-- The final count; `time` is the local time as shown. -/
def stats (time : String) (r : RunRecord) : List LogLine :=
  let skipped := r.steps.length - r.successCount - r.failedCount
  [.info ("\n" ++ rule '='), .info "📊 运行统计", .info ("完成时间: " ++ time), .info (rule '='),
    .info ("✅ 成功: " ++ Text.decimal r.successCount ++ "/" ++ Text.decimal r.steps.length),
    .info ("❌ 失败: " ++ Text.decimal r.failedCount),
    .info ("⏭️ 跳过: " ++ Text.decimal skipped),
    .info ("⏱️ 总耗时: " ++ Text.decimal r.totalMs ++ "ms"), .info (rule '=')] ++
  match r.artifactDir with
  | some dir => [.info ("\n产物已保存至: " ++ dir)]
  | none => []

end Rehearsal.Narration
