import Rehearsal.Disk.Basic
import Rehearsal.Text.Base64
import Rehearsal.Text.Quoted

/-! # Pasting pictures

The script that pastes a picture into the focused element. The picture's bytes, name and kind are put
into it as quoted text, one after another.
-/
namespace Rehearsal.Paste

open Disk (Path Bytes)

/-- The kind of a picture, told by the extension of its name; PNG if that says nothing. -/
def mime (path : Path) : String :=
  match (path.extension?).map Text.smallText with
  | some "jpg" => "image/jpeg"
  | some "jpeg" => "image/jpeg"
  | some "gif" => "image/gif"
  | some "webp" => "image/webp"
  | _ => "image/png"

/-- The name a picture is pasted under. -/
def fileName (path : Path) : String := path.fileName?.getD "image.png"

/-- The script, with marks where the quoted texts go. -/
def template : String := "\x7b
    const bytes = Uint8Array.from(atob(__DATA__), c => c.charCodeAt(0));
    const file = new File([bytes], __NAME__, \x7b type: __MIME__ \x7d);
    const transfer = new DataTransfer();
    transfer.items.add(file);
    const target = document.activeElement || document.body;
    target.dispatchEvent(new ClipboardEvent(\"paste\", \x7b
        clipboardData: transfer,
        bubbles: true,
        cancelable: true,
    \x7d));
    true;
\x7d"

def dataMark : String := "__DATA__"

def nameMark : String := "__NAME__"

def mimeMark : String := "__MIME__"

def script (path : Path) (content : Bytes) : String :=
  let data := Text.Quoted.quote (String.ofList (Text.Base64.encode content))
  let withData := Text.replace template dataMark data
  let withName := Text.replace withData nameMark (Text.Quoted.quote (fileName path))
  Text.replace withName mimeMark (Text.Quoted.quote (mime path))

end Rehearsal.Paste
