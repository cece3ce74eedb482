import Rehearsal.Disk.Path
import Rehearsal.Text.Digits

/-! # Addresses of pages

A scenario may name a page by an address or by a path. A path is completed to the address of a local
file: it is taken from the working folder, its dots are resolved without looking at the disk, and the
bytes that an address cannot hold are escaped. What follows the first question mark or hash is no part
of the path and stays as it is.
-/
namespace Rehearsal.Address

/-- The beginnings, in small letters, of an address that is taken as it is. -/
def knownStarts : List String := ["http://", "https://", "file://", "about:", "data:"]

def isComplete (url : String) : Bool :=
  knownStarts.any fun start => Text.startsWith (Text.smallText url) start

/-- A byte that stands for itself in the path of an address. -/
def isPlain (b : UInt8) : Bool :=
  let n := b.toNat
  let c := Char.ofNat n
  32 < n && n < 127 && !("\"#%/<>?\\\x60\x7b\x7d".toList.contains c)

def escapeByte (b : UInt8) : List Char :=
  if isPlain b then [Char.ofNat b.toNat]
  else
    let digit (n : Nat) := if n < 10 then Char.ofNat (48 + n) else Char.ofNat (55 + n)
    ['%', digit (b.toNat / 16), digit (b.toNat % 16)]

def escapeName (name : String) : List Char := name.toUTF8.data.toList.flatMap escapeByte

def ofNames (names : List String) : String :=
  match names with
  | [] => "file:///"
  | names => "file://" ++ String.ofList (names.flatMap fun name => '/' :: escapeName name)

/-- Completes an address or path with a working folder, itself an absolute path. -/
def complete (folder : Disk.Path) (url : String) : String :=
  if isComplete url then url
  else
    let (path, rest) := Text.cutBefore (fun c => c = '?' || c = '#') url.toList
    let full := folder.join (String.ofList path)
    ofNames (Disk.Path.lexical full.names) ++ String.ofList rest

end Rehearsal.Address
