import Rehearsal.Json.Value
import Rehearsal.Text.Blank

/-! # Page scripts

The functions that are run in a page, the form in which they are called, and how a script that is a
function itself is told from one that is not.
-/
namespace Rehearsal.DevTools.PageScript

def probe : String := Text.joinWith "\n" [
  "(sel) => \x7b",
  "    const el = document.querySelector(sel);",
  "    if (!el) return \"missing\";",
  "    const r = el.getBoundingClientRect();",
  "    const s = window.getComputedStyle(el);",
  "    const visible = r.width > 0 && r.height > 0 && s.visibility !== \"hidden\" && " ++
    "s.display !== \"none\";",
  "    return visible ? \"visible\" : \"hidden\";",
  "\x7d"]

def fill : String := Text.joinWith "\n" [
  "(sel, value) => \x7b",
  "    const el = document.querySelector(sel);",
  "    if (!el) return false;",
  "    el.focus();",
  "    el.value = value;",
  "    el.dispatchEvent(new Event(\"input\", \x7b bubbles: true \x7d));",
  "    el.dispatchEvent(new Event(\"change\", \x7b bubbles: true \x7d));",
  "    return true;",
  "\x7d"]

def clear : String := Text.joinWith "\n" [
  "(sel) => \x7b",
  "    const el = document.querySelector(sel);",
  "    if (!el) return false;",
  "    el.value = \"\";",
  "    el.dispatchEvent(new Event(\"input\", \x7b bubbles: true \x7d));",
  "    return true;",
  "\x7d"]

def select : String := Text.joinWith "\n" [
  "(sel, value) => \x7b",
  "    const el = document.querySelector(sel);",
  "    if (!el) return \"missing\";",
  "    const option = Array.from(el.options || []).find(o => o.value === value || o.label " ++
    "=== value || o.text === value);",
  "    if (!option) return \"no_option\";",
  "    el.value = option.value;",
  "    el.dispatchEvent(new Event(\"input\", \x7b bubbles: true \x7d));",
  "    el.dispatchEvent(new Event(\"change\", \x7b bubbles: true \x7d));",
  "    return \"ok\";",
  "\x7d"]

/-- Clicks a box unless it is as wanted. -/
def setChecked : String := Text.joinWith "\n" [
  "(sel, checked) => \x7b",
  "    const el = document.querySelector(sel);",
  "    if (!el) return false;",
  "    if (el.checked !== checked) el.click();",
  "    return true;",
  "\x7d"]

def doubleClick : String := Text.joinWith "\n" [
  "(sel) => \x7b",
  "    const el = document.querySelector(sel);",
  "    if (!el) return false;",
  "    el.scrollIntoView(\x7b block: \"center\" \x7d);",
  "    const opts = \x7b bubbles: true, cancelable: true, view: window, detail: 2 \x7d;",
  "    el.dispatchEvent(new MouseEvent(\"mousedown\", opts));",
  "    el.dispatchEvent(new MouseEvent(\"mouseup\", opts));",
  "    el.dispatchEvent(new MouseEvent(\"click\", opts));",
  "    el.dispatchEvent(new MouseEvent(\"dblclick\", opts));",
  "    return true;",
  "\x7d"]

def readText : String := Text.joinWith "\n" [
  "(sel) => \x7b",
  "    const el = document.querySelector(sel);",
  "    if (!el) return null;",
  "    return el.innerText ?? el.textContent ?? \"\";",
  "\x7d"]

/-- The origin of the page and what its two stores hold. -/
def dumpStorage : String := Text.joinWith "\n" [
  "() => \x7b",
  "    const dump = (store) => \x7b",
  "        const out = [];",
  "        for (let i = 0; i < store.length; i++) \x7b",
  "            const name = store.key(i);",
  "            out.push(\x7b name, value: store.getItem(name) \x7d);",
  "        \x7d",
  "        return out;",
  "    \x7d;",
  "    return \x7b origin: location.origin, localStorage: dump(localStorage), " ++
    "sessionStorage: dump(sessionStorage) \x7d;",
  "\x7d"]

/-- A call of a function on some values. The text begins with no parenthesis, so that it is no function
itself. -/
def call (function : String) (args : List Json.Value) : String :=
  "void 0, (" ++ function ++ ")(" ++ Text.joinWith ", " (args.map Json.Value.compact) ++ ")"

/-- The text after the parenthesis that closes one already open; `depth` more are open inside it. -/
def afterClosing : Nat → List Char → Option (List Char)
  | _, [] => none
  | depth, '(' :: rest => afterClosing (depth + 1) rest
  | 0, ')' :: rest => some rest
  | depth + 1, ')' :: rest => afterClosing depth rest
  | depth, _ :: rest => afterClosing depth rest

/-- A text in parentheses and an arrow after it. -/
def isArrow : List Char → Bool
  | '(' :: rest =>
    match afterClosing 0 rest with
    | some rest => "=>".toList.isPrefixOf (rest.dropWhile Text.isBlank)
    | none => false
  | _ => false

def isFunction (script : String) : Bool :=
  let cs := script.toList.dropWhile Text.isBlank
  let named := ((Text.afterStart? "async ".toList cs).getD cs).dropWhile Text.isBlank
  "function ".toList.isPrefixOf named || isArrow cs

end Rehearsal.DevTools.PageScript
