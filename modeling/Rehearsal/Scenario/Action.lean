/-! # Actions

The names a step may give for what it does.
-/
namespace Rehearsal

inductive Action where
  | goto
  | click
  | dblclick
  | hover
  | focus
  | scroll
  | check
  | uncheck
  | fill
  | type
  | select
  | press
  | waitFor
  | assertText
  | wait
  | runJs
  | screenshot
  | extract
  | uploadFile
  | pasteImage
  | runScenario
  | saveAuthState
  | loadAuthState
  | ensureAuth
deriving DecidableEq, Repr

namespace Action

/-- The word for an action in a scenario document. -/
def word : Action → String
  | goto => "goto"
  | click => "click"
  | dblclick => "dblclick"
  | hover => "hover"
  | focus => "focus"
  | scroll => "scroll"
  | check => "check"
  | uncheck => "uncheck"
  | fill => "fill"
  | type => "type"
  | select => "select"
  | press => "press"
  | waitFor => "wait_for"
  | assertText => "assert_text"
  | wait => "wait"
  | runJs => "run_js"
  | screenshot => "screenshot"
  | extract => "extract"
  | uploadFile => "upload_file"
  | pasteImage => "paste_image"
  | runScenario => "run_scenario"
  | saveAuthState => "save_auth_state"
  | loadAuthState => "load_auth_state"
  | ensureAuth => "ensure_auth"

def all : List Action :=
  [goto, click, dblclick, hover, focus, scroll, check, uncheck, fill, type, select, press, waitFor,
    assertText, wait, runJs, screenshot, extract, uploadFile, pasteImage, runScenario,
    saveAuthState, loadAuthState, ensureAuth]

def ofWord? (s : String) : Option Action := all.find? (·.word == s)

theorem mem_all (a : Action) : a ∈ all := by cases a <;> decide

theorem word_of_ofWord? {s : String} {a : Action} (h : ofWord? s = some a) : a.word = s := by
  simpa using List.find?_some h

theorem ofWord?_word (a : Action) : ofWord? a.word = some a := by cases a <;> decide

theorem word_injective : Function.Injective word := by
  intro a b h
  have hword : ofWord? a.word = ofWord? b.word := congrArg ofWord? h
  rw [ofWord?_word, ofWord?_word] at hword
  exact Option.some.inj hword

end Action

end Rehearsal
