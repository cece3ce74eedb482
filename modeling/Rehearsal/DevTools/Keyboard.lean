import Rehearsal.Text.Digits
import Rehearsal.Text.Search

/-! # Keyboard

The keys of a US keyboard: the names under which a key can be pressed and the key that the page is
told. A printable character of ASCII is a name of the key that writes it.
-/
namespace Rehearsal.DevTools.Keyboard

/-- Names that are told as they are. -/
def plainNames : List String := [
  "Power", "Eject", "Help", "Backspace", "Tab", "Enter", "Pause", "CapsLock", "Escape", "Convert",
  "NonConvert", "PageUp", "PageDown", "End", "Home", "ArrowLeft", "ArrowUp", "ArrowRight",
  "ArrowDown", "Select", "PrintScreen", "Insert", "Delete", "ContextMenu", "NumLock",
  "ScrollLock", "AudioVolumeMute", "AudioVolumeDown", "AudioVolumeUp", "MediaTrackNext",
  "MediaTrackPrevious", "MediaStop", "MediaPlayPause", "AltGraph", "Cancel", "Clear", "Shift",
  "Control", "Alt", "Accept", "ModeChange", "Print", "Execute", "Meta", "Attn", "CrSel", "ExSel",
  "EraseEof", "Play", "ZoomOut", "SoftLeft", "SoftRight", "Camera", "Call", "EndCall",
  "VolumeDown", "VolumeUp", "\x00"]

/-- Names of places on the keyboard, with the key that is there. -/
def placeNames : List (String × String) := [
  ("Abort", "Cancel"), ("Numpad5", "Clear"), ("NumpadEnter", "Enter"), ("\r", "Enter"),
  ("\n", "Enter"), ("ShiftLeft", "Shift"), ("ShiftRight", "Shift"), ("ControlLeft", "Control"),
  ("ControlRight", "Control"), ("AltLeft", "Alt"), ("AltRight", "Alt"), ("Space", " "),
  ("Numpad9", "PageUp"), ("Numpad3", "PageDown"), ("Numpad1", "End"), ("Numpad7", "Home"),
  ("Numpad4", "ArrowLeft"), ("Numpad8", "ArrowUp"), ("Numpad6", "ArrowRight"),
  ("Numpad2", "ArrowDown"), ("Open", "Execute"), ("Numpad0", "Insert"), ("NumpadDecimal", "\x00"),
  ("MetaLeft", "Meta"), ("MetaRight", "Meta"), ("NumpadMultiply", "*"), ("NumpadAdd", "+"),
  ("NumpadSubtract", "-"), ("NumpadDivide", "/"), ("Semicolon", ";"), ("Equal", "="),
  ("NumpadEqual", "="), ("Comma", ","), ("Minus", "-"), ("Period", "."), ("Slash", "/"),
  ("Backquote", "\x60"), ("BracketLeft", "["), ("Backslash", "\\"), ("BracketRight", "]"),
  ("Quote", "\x27"), ("Props", "CrSel")]

def isPrintable (c : Char) : Bool := ' ' ≤ c && c ≤ '~'

/-- `Digit0` to `Digit9`, and `KeyA` to `KeyZ`, which stand for small letters. -/
def lettered? (name : String) : Option String :=
  match name.toList with
  | ['D', 'i', 'g', 'i', 't', d] => if '0' ≤ d ∧ d ≤ '9' then some (String.singleton d) else none
  | ['K', 'e', 'y', l] =>
    if 'A' ≤ l ∧ l ≤ 'Z' then some (String.singleton (Text.small l)) else none
  | _ => none

def isFunctionKey (name : String) : Bool :=
  (List.range 24).any fun n => "F" ++ Text.decimal (n + 1) == name

def key? (name : String) : Option String :=
  match name.toList with
  | [c] => if isPrintable c then some name else (placeNames.lookup name).or (plain? name)
  | _ => ((placeNames.lookup name).or (lettered? name)).or (plain? name)
where
  plain? (name : String) : Option String :=
    if plainNames.contains name || isFunctionKey name then some name else none

/-- A key that writes something: the return key and every key of one character. -/
def writes (key : String) : Bool := key == "Enter" || key.utf8ByteSize == 1

end Rehearsal.DevTools.Keyboard
