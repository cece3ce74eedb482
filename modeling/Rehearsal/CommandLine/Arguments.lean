import Rehearsal.Disk.Path
import Rehearsal.Text.Digits

/-! # Arguments

How the words of a command line are read. Options may stand before and after the order, the two that
belong to the whole program in either place; each may be given once in a place. Words that begin with
a dash are options unless a double dash came before. The first thing that is wrong ends the reading,
and so does the first request for help.
-/
namespace Rehearsal.CommandLine

inductive Switch where
  | config
  | verbose
  | help
  | version
  | baseUrl
  | headed
  | timeout
  | project
  | port
  | events
deriving DecidableEq, Repr

namespace Switch

def long : Switch → String
  | config => "config"
  | verbose => "verbose"
  | help => "help"
  | version => "version"
  | baseUrl => "base-url"
  | headed => "headed"
  | timeout => "timeout"
  | project => "project"
  | port => "port"
  | events => "events-jsonl"

def short? : Switch → Option Char
  | config => some 'c'
  | verbose => some 'v'
  | help => some 'h'
  | version => some 'V'
  | _ => none

/-- The name that its value goes by in the help, if it takes one. -/
def valueName? : Switch → Option String
  | config => some "CONFIG"
  | baseUrl => some "BASE_URL"
  | timeout => some "TIMEOUT"
  | project => some "PROJECT"
  | port => some "PORT"
  | _ => none

def takesValue (s : Switch) : Bool := s.valueName?.isSome

end Switch

def portMax : Nat := 65535

/-- The number of a port. Zero may be written with a minus sign. -/
def port? (s : String) : Option Nat :=
  match s.toList with
  | '-' :: digits => (Text.digits? digits).filter (· = 0)
  | _ => Text.natural? portMax s

/-- Whether an option may have this value. -/
def Switch.accepts (s : Switch) (value : String) : Bool :=
  match s with
  | config => !value.isEmpty
  | timeout => (Text.natural? Text.wordMax value).isSome
  | port => (port? value).isSome
  | _ => true

inductive Topic where
  | program
  | run
  | validate
  | help
deriving DecidableEq, Repr

structure RunOrder where
  scenarioId : String
  baseUrl : Option String
  headed : Bool
  timeout : Option Nat
  project : Option String
  port : Option Nat
  events : Bool
deriving DecidableEq, Repr

inductive Order where
  | run (o : RunOrder)
  | validate (scenarioId : String)
deriving DecidableEq, Repr

structure Invocation where
  config : Option Disk.Path
  verbose : Bool
  order : Order
deriving DecidableEq, Repr

/-- What a command line asks for; `misuse` is one that makes no sense. -/
inductive Parsed where
  | invocation (i : Invocation)
  | help (topic : Topic)
  | version
  | misuse
deriving DecidableEq, Repr

inductive Stop where
  | help
  | version
  | misuse
deriving DecidableEq, Repr

inductive Word where
  | endOfOptions
  | long (name : String) (value : Option String)
  | short (letters : List Char)
  | plain (s : String)
deriving DecidableEq, Repr

def Word.ofText (s : String) : Word :=
  match s.toList with
  | ['-', '-'] => .endOfOptions
  | '-' :: '-' :: rest =>
    match Text.cutAt? ['='] rest with
    | some (name, value) => .long (String.ofList name) (some (String.ofList value))
    | none => .long (String.ofList rest) none
  | ['-'] => .plain s
  | '-' :: letters => .short letters
  | _ => .plain s

/-- The options given in one place, and the other words. -/
structure Given where
  options : List (Switch × String)
  words : List String
deriving DecidableEq, Repr

namespace Given

def empty : Given := ⟨[], []⟩

def value? (g : Given) (s : Switch) : Option String := g.options.lookup s

def has (g : Given) (s : Switch) : Bool := (g.value? s).isSome

def add (g : Given) (s : Switch) (value : String) : Except Stop Given :=
  if g.has s || !s.accepts value then .error .misuse
  else .ok { g with options := g.options ++ [(s, value)] }

/-- Adds an option without a value, or stops for it. -/
def flag (g : Given) : Switch → Except Stop Given
  | .help => .error .help
  | .version => .error .version
  | s => g.add s ""

/-- Adds the options of letters in a row; the last one may still want its value. -/
def cluster (known : List Switch) : Given → List Char → Except Stop (Given × Option Switch)
  | g, [] => .ok (g, none)
  | g, c :: rest =>
    match known.find? (·.short? == some c) with
    | none => .error .misuse
    | some s =>
      if s.takesValue then
        match rest with
        | [] => .ok (g, some s)
        | '=' :: value => (g.add s (String.ofList value)).map fun g => (g, none)
        | value => (g.add s (String.ofList value)).map fun g => (g, none)
      else do
        let g ← g.flag s
        cluster known g rest

def named (known : List Switch) (g : Given) (name : String) (value : Option String) :
    Except Stop (Given × Option Switch) :=
  match known.find? (·.long == name), value with
  | none, _ => .error .misuse
  | some s, some value =>
    if s.takesValue then (g.add s value).map fun g => (g, none) else .error .misuse
  | some s, none =>
    if s.takesValue then .ok (g, some s) else (g.flag s).map fun g => (g, none)

/-- Adds a word that is no option; more than `room` of them are too many. -/
def addWord (room : Nat) (g : Given) (word : String) : Except Stop Given :=
  if g.words.length < room then .ok { g with words := g.words ++ [word] } else .error .misuse

def addWords (room : Nat) : Given → List String → Except Stop Given
  | g, [] => .ok g
  | g, w :: ws => do
    let g ← g.addWord room w
    addWords room g ws

/-- Reads the words of one place, of which `waiting` is the option before that wants a value. Without
room for other words the first of these ends the place and is left with all that follows. -/
def scan (known : List Switch) (room : Nat) :
    Given → Option Switch → List String → Except Stop (Given × List String)
  | g, none, [] => .ok (g, [])
  | _, some _, [] => .error .misuse
  | g, some s, w :: ws =>
    match Word.ofText w with
    | .plain value => do
      let g ← g.add s value
      scan known room g none ws
    | _ => .error .misuse
  | g, none, w :: ws =>
    match Word.ofText w with
    | .plain word =>
      if room = 0 then .ok (g, word :: ws)
      else do
        let g ← g.addWord room word
        scan known room g none ws
    | .endOfOptions => (g.addWords room ws).map fun g => (g, [])
    | .long name value => do
      let (g, waiting) ← named known g name value
      scan known room g waiting ws
    | .short letters => do
      let (g, waiting) ← cluster known g letters
      scan known room g waiting ws

end Given

/-- The options before the order. -/
def programSwitches : List Switch := [.config, .verbose, .help, .version]

def runSwitches : List Switch :=
  [.baseUrl, .headed, .timeout, .project, .port, .events, .config, .verbose, .help]

def validateSwitches : List Switch := [.config, .verbose, .help]

def RunOrder.ofGiven (g : Given) (scenarioId : String) : RunOrder where
  scenarioId
  baseUrl := g.value? .baseUrl
  headed := g.has .headed
  timeout := (g.value? .timeout).bind (Text.natural? Text.wordMax)
  project := g.value? .project
  port := (g.value? .port).bind port?
  events := g.has .events

/-- The file of the configuration: the one named last, or else the one that the environment names. One
named by an empty text in the environment is refused wherever it would be looked at. -/
def configOf (outer inner : Given) (env : Option String) : Except Stop (Option Disk.Path) :=
  let named := (inner.value? .config).or (outer.value? .config)
  match env with
  | some "" => if outer.has .config && inner.has .config then .ok named else .error .misuse
  | env => .ok (named.or env)

def orderOf (known : List Switch) (topic : Topic) (make : Given → String → Order) (outer : Given)
    (env : Option String) (words : List String) : Parsed :=
  match Given.scan known 1 .empty none words with
  | .error .help => .help topic
  | .error _ => .misuse
  | .ok (inner, _) =>
    match inner.words, configOf outer inner env with
    | [id], .ok config =>
      .invocation ⟨config, outer.has .verbose || inner.has .verbose, make inner id⟩
    | _, _ => .misuse

def topicOf : List String → Parsed
  | [] => .help .program
  | ["run"] => .help .run
  | ["validate"] => .help .validate
  | ["help"] => .help .help
  | _ => .misuse

/-- Reads a command line; `env` is the file of the configuration that the environment names. -/
def parse (env : Option String) (args : List String) : Parsed :=
  match Given.scan programSwitches 0 .empty none args with
  | .error .help => .help .program
  | .error .version => .version
  | .error .misuse => .misuse
  | .ok (outer, order :: words) =>
    match order with
    | "run" => orderOf runSwitches .run (fun g id => .run (.ofGiven g id)) outer env words
    | "validate" => orderOf validateSwitches .validate (fun _ id => .validate id) outer env words
    | "help" => topicOf words
    | _ => .misuse
  | .ok (_, []) => .misuse

end Rehearsal.CommandLine
