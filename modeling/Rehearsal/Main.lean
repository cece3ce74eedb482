import Rehearsal.CommandLine.Program
import Std.Time.Zoned

/-! # Main

The program at work: it takes a picture of the part of the disk that it is going to look at, has the
command line performed on it, and writes what is to be written. It brings no browser of its own.
-/
namespace Rehearsal.CommandLine

open Calendar (Timestamp)

/-- Adds what stands at a place of the real disk, with all below it. -/
partial def copyPlace (disk : Disk) (names : List String) : IO Disk := do
  let place := (← IO.currentDir) / ("/" ++ Text.joinWith "/" names)
  if ← place.isDir then
    let entries ← place.readDir
    let disk := disk.putBelow [] names .folder
    entries.toList.foldlM (fun disk entry => copyPlace disk (names ++ [entry.fileName])) disk
  else if ← place.pathExists then
    return disk.putBelow [] names (.file (← IO.FS.readBinFile place).toList)
  else return disk

def copyPath (disk : Disk) (path : Disk.Path) : IO Disk :=
  copyPlace disk (Disk.Path.lexical (Disk.Path.names (disk.absolute path)))

def knownVariables : List String := [
  "RUNNER_CONFIG", "RUNNER_DATA_DIR", "RUNNER_ARTIFACTS_DIR", "RUNNER_PROJECT_ID",
  "RUNNER_DEFAULT_TIMEOUT_MS", "RUNNER_HEADLESS", "RUNNER_BROWSER_DEBUG_PORT",
  "RUNNER_CHROME_EXECUTABLE", "RUNNER_USER_DATA_DIR", "RUNNER_CAPTURE_EVERY_STEP",
  "RUNNER_TYPE_DELAY_MS", "RUNNER_AUTH_CHECK_TIMEOUT_MS", "RUNNER_WORKING_DIR",
  "VERBOSE_LOGGING", "RUST_LOG"]

def environment : IO (String → Option String) := do
  let values ← knownVariables.mapM fun name => do return (name, ← IO.getEnv name)
  return fun name => (values.lookup name).join

/-- The files of the configuration and of the data it names. -/
def copyDisk (env : String → Option String) (args : List String) : IO Disk := do
  let here ← IO.currentDir
  let disk : Disk := ⟨Disk.Path.names here.toString, []⟩
  let disk := disk.putBelow [] disk.cwd .folder
  match parse (env "RUNNER_CONFIG") args with
  | .invocation i =>
    let disk ← match i.config with
      | some path => copyPath disk path
      | none => pure disk
    match Config.load disk i.config env with
    | .ok config => copyPath disk config.dataDir
    | .error _ => return disk
  | _ => return disk

def present : IO (Timestamp × Timestamp) := do
  let now ← Std.Time.Timestamp.now
  let here ← Std.Time.PlainDateTime.now
  let nanos := now.toNanosecondsSinceUnixEpoch.val
  let date : Calendar.Date := ⟨here.year, here.month.val.toNat, here.day.val.toNat⟩
  let second := here.hour.val * 3600 + here.minute.val * 60 + here.second.val
  return (⟨nanos / 1000000000, (nanos % 1000000000).toNat⟩, ⟨date.days * 86400 + second, 0⟩)

def beginning : IO Run.Beginning := do
  let (epoch, localEpoch) ← present
  let bytes ← IO.getRandomBytes 4
  let digits := bytes.toList.flatMap fun b => [Text.hexDigit (b.toNat / 16), Text.hexDigit b.toNat]
  return ⟨epoch, localEpoch, String.ofList digits⟩

def run (args : List String) : IO UInt32 := do
  let env ← environment
  let b ← beginning
  let world := World.ofPage (DevTools.Tab.ofPage ()) (Desk.ofDisk (← copyDisk env args))
  let (reply, _, world) := (perform DevTools.Host.bare env args b).run ⟨0, false, none⟩ world
  let reply := reply.getD .misuse
  for line in reply.text do
    IO.println line
  for event in world.events do
    IO.println event.toValue.compact
  for line in world.log.filter reply.filter.shows do
    IO.println (b.epoch.text ++ " " ++ line.shown)
  match reply.complaint with
  | some complaint => IO.eprintln complaint
  | none => if reply.code = 2 then IO.eprintln ("Usage: " ++ programName ++ " " ++ Topic.program.usage)
  return reply.code.toUInt32

end Rehearsal.CommandLine

def main (args : List String) : IO UInt32 := Rehearsal.CommandLine.run args
