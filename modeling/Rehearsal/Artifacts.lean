import Rehearsal.Disk.Desk
import Rehearsal.Failure

/-! # Artifacts

Where the screenshots of a run and its record are put.
-/
namespace Rehearsal

open Disk (Path Bytes)

structure ArtifactSink where
  /-- Answers with a reference to the screenshot. -/
  storeScreenshot : Desk → String → Bytes → Except Failure String × Desk
  /-- Answers with the place of the record, if it has one. -/
  storeResult : Desk → RunRecord → Except Failure (Option String) × Desk
  location : Option String

namespace ArtifactSink

/-- Keeps names and records in memory. -/
def memory : ArtifactSink where
  storeScreenshot d name png :=
    (.ok ("memory://" ++ name), { d with screenshots := d.screenshots ++ [(name, png.length)] })
  storeResult d result := (.ok none, { d with results := d.results ++ [result] })
  location := none

def resultName : String := "result.json"

def write (d : Desk) (path : Path) (content : Bytes) : Except Failure String × Desk :=
  match d.disk.write path content with
  | .ok disk => (.ok path, { d with disk })
  | .error f => (.error (.disk f.message), d)

def folder (dir : Path) : ArtifactSink where
  storeScreenshot d name png := write d (dir.join name) png
  storeResult d result :=
    let (answer, d) := write d (dir.join resultName) (result.toValue.pretty 0).toUTF8.data.toList
    (answer.map some, d)
  location := some dir

/-- The folder of a run, named for when it began and for its identifier. -/
def folderName (stamp runId : String) : String := stamp ++ "_" ++ runId

def create (d : Desk) (root : Path) (stamp runId : String) :
    Except Failure ArtifactSink × Desk × List LogLine :=
  let dir := root.join (folderName stamp runId)
  match d.disk.makeFolders dir with
  | .ok disk => (.ok (folder dir), { d with disk }, [.debug ("产物目录: " ++ dir)])
  | .error f => (.error (.disk f.message), { d with disk := d.disk.leaveFolders dir }, [])

end ArtifactSink

end Rehearsal
