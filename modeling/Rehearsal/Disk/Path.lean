import Rehearsal.Text.Search

/-! # Paths

A path as it is written: names with a slash between them, one slash in front when it is absolute.
-/
namespace Rehearsal.Disk

abbrev Path := String

namespace Path

def isAbsolute (p : Path) : Bool := p.toList.head? == some '/'

/-- The path `q` seen from `p`. An absolute `q` stands for itself; an empty one still closes `p` with
a slash. -/
def join (p q : Path) : Path :=
  if isAbsolute q then q
  else if p.isEmpty || p.toList.getLast? == some '/' then p ++ q
  else p ++ "/" ++ q

/-- The names between the slashes, without empty ones. -/
def names (p : Path) : List String :=
  ((Text.splitOn '/' p.toList).filter (! ·.isEmpty)).map String.ofList

/-- The names without the dots that stand for the place they are at, one in front aside. -/
def components (p : Path) : List String :=
  match names p with
  | [] => []
  | first :: rest =>
    if first = "." ∧ ¬ isAbsolute p then first :: rest.filter (· ≠ ".")
    else (first :: rest).filter (· ≠ ".")

def fileName? (p : Path) : Option String :=
  match (components p).getLast? with
  | some last => if last = ".." ∨ last = "." then none else some last
  | none => none

/-- What follows the last dot of the file's name; a dot in front of the name does not count. -/
def extension? (p : Path) : Option String := do
  let name ← fileName? p
  let tail := (name.toList.reverse.takeWhile (· ≠ '.')).reverse
  if name.length ≤ tail.length + 1 then none else some (String.ofList tail)

/-- The names left when each `..` takes away the name before it, and at the root nothing. -/
def lexical (names : List String) : List String :=
  (names.foldl (fun (read : List String) name =>
    if name = "." then read else if name = ".." then read.drop 1 else name :: read) []).reverse

/-- The path without its last component. -/
def parent? (p : Path) : Option Path :=
  match (components p).reverse with
  | [] => none
  | _ :: before =>
    some ((if isAbsolute p then "/" else "") ++ Text.joinWith "/" before.reverse)

/-- The path of the folder itself: an empty path is the folder that relative paths start from. -/
def folder (p : Path) : Path := if p = "" then "." else p

theorem not_isAbsolute {name : String} (h : '/' ∉ name.toList) : isAbsolute name = false := by
  cases hl : name.toList with
  | nil => simp [isAbsolute, hl]
  | cons c cs =>
    have hc : c ≠ '/' := by
      intro hc
      simp [hl, hc] at h
    simp [isAbsolute, hl, hc]

theorem names_append_of_slash {p : Path} {name : String} {cs : List Char}
    (hp : p.toList = cs ++ ['/']) (h : '/' ∉ name.toList) (hne : name ≠ "") :
    names (p ++ name) = names p ++ [name] := by
  have hl : name.toList ≠ [] := by simpa using hne
  simp [names, hp, Text.splitOn_append_cons, Text.splitOn_of_not_mem h, Text.splitOn, hl]

/-- A single name comes last in the path that it is joined to. -/
theorem names_join {name : String} (h : '/' ∉ name.toList) (hne : name ≠ "") (p : Path) :
    names (p.join name) = names p ++ [name] := by
  have habs := not_isAbsolute h
  have hl : name.toList ≠ [] := by simpa using hne
  by_cases hp : p = ""
  · subst hp
    simp [join, habs, names, Text.splitOn, Text.splitOn_of_not_mem h, hl]
  · by_cases hlast : p.toList.getLast? = some '/'
    · obtain ⟨cs, hcs⟩ := List.getLast?_eq_some_iff.mp hlast
      simp only [join, habs, hlast, Bool.false_eq_true, ↓reduceIte, beq_self_eq_true, Bool.or_true]
      exact names_append_of_slash hcs h hne
    · have hj : p.join name = p ++ "/" ++ name := by simp [join, habs, hp, hlast]
      have hs : (p ++ "/").toList = p.toList ++ ['/'] := by simp
      rw [hj, names_append_of_slash hs h hne]
      simp [names, Text.splitOn_append_cons, Text.splitOn]

theorem isAbsolute_append {p q : Path} (h : p ≠ "") : isAbsolute (p ++ q) = isAbsolute p := by
  cases hl : p.toList with
  | nil => exact absurd (by simpa using hl) h
  | cons c cs => simp [isAbsolute, hl]

theorem join_eq_append {p : Path} {name : String} (h : '/' ∉ name.toList) :
    ∃ rest, p.join name = p ++ rest := by
  by_cases hslash : (p.isEmpty || p.toList.getLast? == some '/') = true
  · exact ⟨name, by simp only [join, not_isAbsolute h, hslash, Bool.false_eq_true, ↓reduceIte]⟩
  · refine ⟨"/" ++ name, ?_⟩
    simp only [join, not_isAbsolute h, hslash, Bool.false_eq_true, ↓reduceIte]
    exact String.append_assoc

end Path

end Rehearsal.Disk
