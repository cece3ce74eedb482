import Rehearsal.Disk.Desk
import Rehearsal.Page.UiMap

/-! # Folders of maps

All maps of a folder that a project may see. A file that holds no map is left out with a warning. The
entries are taken in the order given; of two maps with one name the later entry counts.
-/
namespace Rehearsal.UiMapSet

open Disk (Path)

/-- The map in a file. The refusal does not tell what is wrong with the file. -/
def loadFile (disk : Disk) (path : Path) : Except String UiMap :=
  match disk.readText path with
  | .error _ => .error ("无法读取UI Map文件: " ++ path)
  | .ok text =>
    match Json.readText UiMap.read text with
    | .error _ => .error ("无法解析UI Map文件: " ++ path)
    | .ok m => .ok m

def addFile (disk : Disk) (project : Option String) (s : UiMapSet) (path : Path) :
    UiMapSet × List LogLine :=
  match loadFile disk path with
  | .error reason => (s, [.warn ("加载文件失败 " ++ path ++ ": " ++ reason)])
  | .ok m =>
    if m.isVisible project then
      (s.insert m, [.debug ("已加载 UI Map: " ++ m.name ++ " (" ++ Text.decimal m.elements.length ++
        " 个元素)")])
    else (s, [])

/-- The maps in the files among `entries`, names in a folder, in their order. -/
def ofEntries (disk : Disk) (project : Option String) (folder : Path) (entries : List String) :
    UiMapSet × List LogLine :=
  ((entries.map folder.join).filter fun path => path.extension? == some "json").foldl
    (fun (s, lines) path =>
      let (s, more) := addFile disk project s path
      (s, lines ++ more))
    (empty, [])

/-- The maps in a folder. No folder means no maps. -/
def loadFolder (disk : Disk) (folder : Path) (project : Option String) :
    Except String UiMapSet × List LogLine :=
  if ! disk.has folder then (.ok empty, [.debug ("UI Map 目录不存在: " ++ folder)])
  else
    match disk.list folder with
    | .error _ => (.error ("无法读取文件夹: " ++ folder), [])
    | .ok entries =>
      let (s, lines) := ofEntries disk project folder entries
      (.ok s, lines)

end Rehearsal.UiMapSet
