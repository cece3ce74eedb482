import Rehearsal.Log
import Rehearsal.Text.Blank
import Rehearsal.Text.Search

/-! # Log filters

Which lines of the log are shown. A filter is a list of rules, each for the places in the program whose
names begin with some text, or for all places; the rule with the longest text decides, of several with
the same text the last one. All lines come from this program.
-/
namespace Rehearsal

/-- Shows the lines of a place that are at least as urgent as a level. -/
structure LogRule where
  place : Option String
  urgency : Nat
deriving DecidableEq, Repr

structure LogFilter where
  rules : List LogRule
deriving DecidableEq, Repr

namespace LogFilter

/-- The name of this program in the rules. -/
def programPlace : String := "scenario_runner"

def level? (s : String) : Option Nat :=
  match Text.smallText s with
  | "off" | "0" => some 4
  | "" | "error" | "1" => some 3
  | "warn" | "2" => some 2
  | "info" | "3" => some 1
  | "debug" | "4" | "trace" | "5" => some 0
  | _ => none

/-- A character that a rule can begin with. -/
def opensRule (c : Char) : Bool :=
  c = '-' || c = ':' || c = '_' || c.isAlphanum || 128 ≤ c.toNat

/-- Reads a rule: a level, a place, or both with an equality sign between them. -/
def rule? (s : String) : Option LogRule :=
  let cs := Text.trimChars s.toList
  match cs.head?.filter opensRule, Text.cutAt? ['='] cs with
  | none, _ => none
  | some _, some (place, []) => some ⟨some (String.ofList place), 0⟩
  | some _, some (place, level) =>
    (level? (String.ofList level)).map fun urgency => ⟨some (String.ofList place), urgency⟩
  | some _, none =>
    match level? (String.ofList cs) with
    | some urgency => some ⟨none, urgency⟩
    | none => some ⟨some (String.ofList cs), 0⟩

/-- Reads the rules of a text, between commas; a single bad one spoils it. -/
def ofText? (s : String) : Option LogFilter :=
  (((Text.splitOn ',' s.toList).filter (! ·.isEmpty)).mapM fun part =>
    rule? (String.ofList part)).map LogFilter.mk

def standard (verbose : Bool) : LogFilter :=
  ⟨[⟨some programPlace, if verbose then 0 else 1⟩, ⟨none, 2⟩]⟩

/-- The filter that the environment gives, or else the usual one. -/
def choose (env : Option String) (verbose : Bool) : LogFilter :=
  (env.bind ofText?).getD (standard verbose)

def LogRule.weight (r : LogRule) : Nat :=
  match r.place with
  | none => 0
  | some place => place.length + 1

def threshold (f : LogFilter) : Nat :=
  let fitting := f.rules.filter fun r => r.place.all (Text.startsWith programPlace)
  ((fitting.foldl (fun (best : Option LogRule) r =>
    match best with
    | some b => if LogRule.weight r < LogRule.weight b then best else some r
    | none => some r) none).map LogRule.urgency).getD 4

def shows (f : LogFilter) (l : LogLine) : Bool := f.threshold ≤ l.level.urgency

end LogFilter

end Rehearsal
