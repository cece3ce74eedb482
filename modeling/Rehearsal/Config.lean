import Rehearsal.Disk.Basic
import Rehearsal.Toml.Document
import Rehearsal.Json.Record

/-! # Configuration

Settings of the program. They have values of their own, which a file may replace, and then variables
of the environment. A variable that cannot be read as what it is for is passed over.
-/
namespace Rehearsal

open Disk (Path)

structure Config where
  dataDir : String
  artifactsDir : String
  projectId : String
  defaultTimeoutMs : Nat
  headless : Bool
  browserDebugPort : Option Nat
  chromeExecutable : Option String
  browserArgs : List String
  userDataDir : Option String
  captureEveryStep : Bool
  typeDelayMs : Nat
  authCheckTimeoutMs : Nat
  workingDir : Option String
  verboseLogging : Bool
deriving DecidableEq, Repr

namespace Config

def default : Config where
  dataDir := "data"
  artifactsDir := "artifacts"
  projectId := "default"
  defaultTimeoutMs := 5000
  headless := true
  browserDebugPort := none
  chromeExecutable := none
  browserArgs := []
  userDataDir := none
  captureEveryStep := true
  typeDelayMs := 50
  authCheckTimeoutMs := 3000
  workingDir := none
  verboseLogging := false

def portMax : Nat := 65535

def fields : List String :=
  ["data_dir", "artifacts_dir", "project_id", "default_timeout_ms", "headless",
    "browser_debug_port", "chrome_executable", "browser_args", "user_data_dir",
    "capture_every_step", "type_delay_ms", "auth_check_timeout_ms", "working_dir",
    "verbose_logging"]

open Json Reading in
def read : Reading Config := fun t => do
  let m ← Members.ofTree fields "struct Config" t
  let d := default
  return {
    dataDir := ← m.orElse "data_dir" d.dataDir string
    artifactsDir := ← m.orElse "artifacts_dir" d.artifactsDir string
    projectId := ← m.orElse "project_id" d.projectId string
    defaultTimeoutMs := ← m.orElse "default_timeout_ms" d.defaultTimeoutMs (natural Text.wordMax)
    headless := ← m.orElse "headless" d.headless bool
    browserDebugPort := ← m.optional "browser_debug_port" (natural portMax)
    chromeExecutable := ← m.optional "chrome_executable" string
    browserArgs := ← m.orElse "browser_args" d.browserArgs (list string)
    userDataDir := ← m.optional "user_data_dir" string
    captureEveryStep := ← m.orElse "capture_every_step" d.captureEveryStep bool
    typeDelayMs := ← m.orElse "type_delay_ms" d.typeDelayMs (natural Text.wordMax)
    authCheckTimeoutMs :=
      ← m.orElse "auth_check_timeout_ms" d.authCheckTimeoutMs (natural Text.wordMax)
    workingDir := ← m.optional "working_dir" string
    verboseLogging := ← m.orElse "verbose_logging" d.verboseLogging bool }

open Json in
def toValue (c : Config) : Value :=
  let text (s : Option String) : Value := (s.map .string).getD .null
  .object [("data_dir", .string c.dataDir), ("artifacts_dir", .string c.artifactsDir),
    ("project_id", .string c.projectId), ("default_timeout_ms", .ofNat c.defaultTimeoutMs),
    ("headless", .bool c.headless),
    ("browser_debug_port", (c.browserDebugPort.map .ofNat).getD .null),
    ("chrome_executable", text c.chromeExecutable), ("browser_args", .strings c.browserArgs),
    ("user_data_dir", text c.userDataDir), ("capture_every_step", .bool c.captureEveryStep),
    ("type_delay_ms", .ofNat c.typeDelayMs),
    ("auth_check_timeout_ms", .ofNat c.authCheckTimeoutMs), ("working_dir", text c.workingDir),
    ("verbose_logging", .bool c.verboseLogging)]

/-- The words of a truth value, in small letters. -/
def bool? (s : String) : Option Bool :=
  if s = "true" then some true else if s = "false" then some false else none

def withEnvironment (c : Config) (env : String → Option String) : Config :=
  let number (name : String) (now : Nat) := ((env name).bind (Text.natural? Text.wordMax)).getD now
  let flag (name : String) (now : Bool) := ((env name).bind bool?).getD now
  { c with
    dataDir := (env "RUNNER_DATA_DIR").getD c.dataDir
    artifactsDir := (env "RUNNER_ARTIFACTS_DIR").getD c.artifactsDir
    projectId := (env "RUNNER_PROJECT_ID").getD c.projectId
    defaultTimeoutMs := number "RUNNER_DEFAULT_TIMEOUT_MS" c.defaultTimeoutMs
    headless := flag "RUNNER_HEADLESS" c.headless
    browserDebugPort :=
      ((env "RUNNER_BROWSER_DEBUG_PORT").bind (Text.natural? portMax)).or c.browserDebugPort
    chromeExecutable := (env "RUNNER_CHROME_EXECUTABLE").or c.chromeExecutable
    userDataDir := (env "RUNNER_USER_DATA_DIR").or c.userDataDir
    captureEveryStep := flag "RUNNER_CAPTURE_EVERY_STEP" c.captureEveryStep
    typeDelayMs := number "RUNNER_TYPE_DELAY_MS" c.typeDelayMs
    authCheckTimeoutMs := number "RUNNER_AUTH_CHECK_TIMEOUT_MS" c.authCheckTimeoutMs
    workingDir := (env "RUNNER_WORKING_DIR").or c.workingDir
    verboseLogging := flag "VERBOSE_LOGGING" c.verboseLogging }

def ofText? (text : String) : Option Config :=
  (Toml.read? text).bind fun t => (read t).toOption

/-- Reads the file, if one is given, and then the environment. -/
def load (disk : Disk) (path : Option Path) (env : String → Option String) :
    Except String Config :=
  match path with
  | none => .ok (default.withEnvironment env)
  | some path =>
    match disk.readText path with
    | .error _ => .error ("无法读取配置文件: " ++ path)
    | .ok text =>
      match ofText? text with
      | none => .error ("无法解析配置文件: " ++ path)
      | some c => .ok (c.withEnvironment env)

def scenariosDir (c : Config) : Path := Path.join c.dataDir "scenarios"

def uiMapsDir (c : Config) : Path := Path.join c.dataDir "ui_maps"

def sessionsDir (c : Config) : Path := Path.join c.dataDir "auth_states"

def resourcesDir (c : Config) : Path := Path.join c.dataDir "resources"

/-- The folder that relative paths start from: the one given, or else the process's own. -/
def workingFolder (c : Config) (disk : Disk) : Path :=
  c.workingDir.getD ("/" ++ Text.joinWith "/" disk.cwd)

end Config

/-- What a run of scenarios needs to know. Times are in milliseconds. -/
structure Settings where
  projectId : String
  defaultTimeout : Nat
  workingDir : Path
  captureEveryStep : Bool
  typeDelay : Nat
  authCheckTimeout : Nat
deriving DecidableEq, Repr

namespace Settings

def default : Settings where
  projectId := "default"
  defaultTimeout := 5000
  workingDir := "."
  captureEveryStep := false
  typeDelay := 50
  authCheckTimeout := 3000

def ofConfig (c : Config) (disk : Disk) (projectId : String) : Settings where
  projectId
  defaultTimeout := c.defaultTimeoutMs
  workingDir := c.workingFolder disk
  captureEveryStep := c.captureEveryStep
  typeDelay := c.typeDelayMs
  authCheckTimeout := c.authCheckTimeoutMs

end Settings

end Rehearsal
