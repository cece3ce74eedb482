/-! # Log lines

What the program says about its own doings, by level.
-/
namespace Rehearsal

inductive LogLevel where
  | debug
  | info
  | warn
  | error
deriving DecidableEq, Repr

namespace LogLevel

def word : LogLevel → String
  | debug => "DEBUG"
  | info => "INFO"
  | warn => "WARN"
  | error => "ERROR"

/-- A greater number is more urgent. -/
def urgency : LogLevel → Nat
  | debug => 0
  | info => 1
  | warn => 2
  | error => 3

end LogLevel

structure LogLine where
  level : LogLevel
  text : String
deriving DecidableEq, Repr

namespace LogLine

def debug (text : String) : LogLine := ⟨.debug, text⟩

def info (text : String) : LogLine := ⟨.info, text⟩

def warn (text : String) : LogLine := ⟨.warn, text⟩

def error (text : String) : LogLine := ⟨.error, text⟩

def shown (l : LogLine) : String := l.level.word ++ " " ++ l.text

/-- The lines of level `info` and above. -/
def important (lines : List LogLine) : List LogLine := lines.filter (·.level ≠ .debug)

end LogLine

end Rehearsal
