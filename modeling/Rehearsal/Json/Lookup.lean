import Rehearsal.Json.Record

/-! # Looking things up in a document

Members of a document that need not be there: something empty stands for what is missing or of another
kind. Of a key given twice the first value is taken.
-/
namespace Rehearsal.Json.Lookup

def member (t : Tree) (key : String) : Tree :=
  match t with
  | .object ms => (ms.lookup (some key)).getD .null
  | _ => .null

def asText? : Tree → Option String
  | .string s => s
  | _ => none

def asText (t : Tree) : String := (asText? t).getD ""

def asNat? : Tree → Option Nat
  | .numeral n =>
    match n.number? with
    | some (.natural n) => some n
    | _ => none
  | _ => none

def asNat (t : Tree) : Nat := (asNat? t).getD 0

def items : Tree → List Tree
  | .array ts => ts
  | _ => []

def pairs : Tree → List (String × Tree)
  | .object ms => ms.filterMap fun (k, v) => k.map fun k => (k, v)
  | _ => []

def isNull : Tree → Bool
  | .null => true
  | _ => false

/-- The containers that a value may hold inside one another. -/
def depth : Nat := 1000

def asValue (t : Tree) : Value := (Value.ofTree? depth t).getD .null

def item (ts : List Tree) (i : Nat) : Tree := ts.getD i .null

def text? (t : Tree) (key : String) : Option String := asText? (member t key)

def text (t : Tree) (key : String) : String := asText (member t key)

def nat? (t : Tree) (key : String) : Option Nat := asNat? (member t key)

def nat (t : Tree) (key : String) : Nat := asNat (member t key)

def list (t : Tree) (key : String) : List Tree := items (member t key)

def texts (t : Tree) (key : String) : List String := (list t key).map asText

def flag (t : Tree) (key : String) : Bool :=
  match member t key with
  | .bool b => b
  | _ => false

def table (t : Tree) (key : String) : List (String × Tree) := pairs (member t key)

end Rehearsal.Json.Lookup
