import Rehearsal.Toml.Scalar

/-! # TOML documents

Lines that set keys, under headers that open tables. A key is set once; a table is opened by a header
once; what dotted keys made is closed to headers and the other way round. Lists and tables between
braces may go over several lines and end in a comma. The result is the tree of an object.
-/
namespace Rehearsal.Toml

open Json (Tree)

inductive Origin where
  /-- Named on the way by a header. -/
  | passed
  | header
  | dotted
deriving DecidableEq, Repr

/-- What a key holds. A value is closed; tables and lists of tables may still grow. -/
inductive Item where
  | value (t : Tree)
  | table (origin : Origin) (entries : List (String × Item))
  | tables (done : List (List (String × Item))) (current : List (String × Item))

abbrev Table := List (String × Item)

/-- Changes what a key holds; the change sees what was there. -/
def alter (key : String) (change : Option Item → Option Item) : Table → Option Table
  | [] => (change none).map fun item => [(key, item)]
  | (k, item) :: rest =>
    if k = key then (change (some item)).map fun item => (k, item) :: rest
    else (alter key change rest).map ((k, item) :: ·)

/-- Changes the table that a header names, going through tables and the last tables of lists. -/
def underHeader (change : Table → Option Table) : List String → Table → Option Table
  | [], table => change table
  | key :: path, table =>
    alter key (fun
      | none => (underHeader change path []).map (.table .passed)
      | some (.table origin entries) => (underHeader change path entries).map (.table origin)
      | some (.tables done current) => (underHeader change path current).map (.tables done)
      | some (.value _) => none) table

/-- Sets a dotted key, making the tables on the way. -/
def setDotted (t : Tree) : List String → Table → Option Table
  | [], _ => none
  | [key], table =>
    alter key (fun
      | none => some (.value t)
      | some _ => none) table
  | key :: path, table =>
    alter key (fun
      | none => (setDotted t path []).map (.table .dotted)
      | some (.table .header _) => none
      | some (.table origin entries) => (setDotted t path entries).map (.table origin)
      | some _ => none) table

def openTable (key : String) (table : Table) : Option Table :=
  alter key (fun
    | none => some (.table .header [])
    | some (.table .passed entries) => some (.table .header entries)
    | some _ => none) table

def openListed (key : String) (table : Table) : Option Table :=
  alter key (fun
    | none => some (.tables [] [])
    | some (.tables done current) => some (.tables (done ++ [current]) [])
    | some _ => none) table

mutual

def treeOfItem : Item → Tree
  | .value t => t
  | .table _ entries => .object (treesOfTable entries)
  | .tables done current => .array (treesOfTables done ++ [.object (treesOfTable current)])

def treesOfTable : List (String × Item) → List (Option String × Tree)
  | [] => []
  | (key, item) :: rest => (some key, treeOfItem item) :: treesOfTable rest

def treesOfTables : List (List (String × Item)) → List Tree
  | [] => []
  | table :: rest => .object (treesOfTable table) :: treesOfTables rest

end

def skipSpaces (cs : List Char) : List Char := cs.dropWhile isSpace

def isBareKey (c : Char) : Bool :=
  isDecimal c || ('a' ≤ c && c ≤ 'z') || ('A' ≤ c && c ≤ 'Z') || c = '_' || c = '-'

/-- One part of a key: bare, or a string on one line. -/
def keyPart? (cs : List Char) : Option (String × List Char) :=
  match cs with
  | '"' :: rest => shortString? '"' (cs.length + 1) [] rest
  | '\x27' :: rest => shortString? '\x27' (cs.length + 1) [] rest
  | _ =>
    let name := cs.takeWhile isBareKey
    if name.isEmpty then none else some (String.ofList name, cs.dropWhile isBareKey)

def key? : Nat → List Char → Option (List String × List Char)
  | 0, _ => none
  | fuel + 1, cs => do
    let (part, rest) ← keyPart? (skipSpaces cs)
    match skipSpaces rest with
    | '.' :: rest =>
      let (path, rest) ← key? fuel rest
      some (part :: path, rest)
    | rest => some ([part], rest)

/-- Skips a comment, which holds no controls, up to the line end. -/
def skipComment? : List Char → Option (List Char)
  | '#' :: rest =>
    let (comment, rest) := Text.cutBefore (fun c => c = '\n' || c = '\r') rest
    if comment.any isControl then none else some rest
  | cs => some cs

/-- Skips blanks, line ends and comments inside a list. -/
def skipLines : Nat → List Char → Option (List Char)
  | 0, _ => none
  | fuel + 1, cs => do
    let cs ← skipComment? (skipSpaces cs)
    match lineEnd? cs with
    | some rest => skipLines fuel rest
    | none => some cs

/-- The lists and tables that may stand inside one another in a value. -/
def valueRoom : Nat := 80

mutual

/-- A value of any kind, with at most `room` lists and tables inside one another. -/
def value? : Nat → Nat → List Char → Option (Tree × List Char)
  | 0, _, _ => none
  | fuel + 1, room, cs =>
    match cs, room with
    | '[' :: _, 0 => none
    | '[' :: rest, room + 1 => items? fuel room [] rest
    | '\x7b' :: _, 0 => none
    | '\x7b' :: rest, room + 1 => fields? fuel room [] rest
    | c :: _, _ =>
      if c = '"' ∨ c = '\x27' then (string? cs).map fun (s, rest) => (.string (some s), rest)
      else
        let (token, rest) := bareToken cs
        (bare? token).map fun t => (t, rest)
    | [], _ => none

/-- The values of a list, after the bracket or a comma. -/
def items? : Nat → Nat → List Tree → List Char → Option (Tree × List Char)
  | 0, _, _, _ => none
  | fuel + 1, room, read, cs => do
    match ← skipLines (cs.length + 1) cs with
    | ']' :: rest => some (.array read.reverse, rest)
    | cs =>
      let (t, rest) ← value? fuel room cs
      match ← skipLines (rest.length + 1) rest with
      | ',' :: rest => items? fuel room (t :: read) rest
      | ']' :: rest => some (.array (t :: read).reverse, rest)
      | _ => none

/-- The keys of a table between braces, after the brace or a comma. -/
def fields? : Nat → Nat → Table → List Char → Option (Tree × List Char)
  | 0, _, _, _ => none
  | fuel + 1, room, table, cs => do
    match ← skipLines (cs.length + 1) cs with
    | '\x7d' :: rest => some (.object (treesOfTable table), rest)
    | cs =>
      let (path, rest) ← key? (cs.length + 1) cs
      match rest with
      | '=' :: rest =>
        let (t, rest) ← value? fuel room (skipSpaces rest)
        let table ← setDotted t path table
        match ← skipLines (rest.length + 1) rest with
        | ',' :: rest => fields? fuel room table rest
        | '\x7d' :: rest => some (.object (treesOfTable table), rest)
        | _ => none
      | _ => none

end

def endOfLine? (cs : List Char) : Option (List Char) := do
  let cs ← skipComment? (skipSpaces cs)
  match cs with
  | [] => some []
  | cs => lineEnd? cs

/-- Reads the lines one by one, with the header that is open. -/
def linesFrom : Nat → List String → Table → List Char → Option Table
  | 0, _, _, _ => none
  | fuel + 1, path, table, cs => do
    let cs ← skipComment? (skipSpaces cs)
    match cs with
    | [] => some table
    | '[' :: '[' :: rest =>
      let (key, rest) ← key? (rest.length + 1) rest
      match rest with
      | ']' :: ']' :: rest =>
        let table ← underHeader (openListed (key.getLastD "")) key.dropLast table
        linesFrom fuel key table (← endOfLine? rest)
      | _ => none
    | '[' :: rest =>
      let (key, rest) ← key? (rest.length + 1) rest
      match rest with
      | ']' :: rest =>
        let table ← underHeader (openTable (key.getLastD "")) key.dropLast table
        linesFrom fuel key table (← endOfLine? rest)
      | _ => none
    | cs =>
      match lineEnd? cs with
      | some rest => linesFrom fuel path table rest
      | none =>
        let (key, rest) ← key? (cs.length + 1) cs
        match rest with
        | '=' :: rest =>
          let (t, rest) ← value? (rest.length + 1) valueRoom (skipSpaces rest)
          let table ← underHeader (setDotted t key) path table
          linesFrom fuel path table (← endOfLine? rest)
        | _ => none

/-- The tree of a TOML text, if it is one. A byte order mark in front is skipped. -/
def read? (text : String) : Option Tree := do
  let cs := match text.toList with
    | c :: rest => if c.toNat = 0xFEFF then rest else c :: rest
    | [] => []
  let table ← linesFrom (cs.length + 1) [] [] cs
  some (.object (treesOfTable table))

end Rehearsal.Toml
