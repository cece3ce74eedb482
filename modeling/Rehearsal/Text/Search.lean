/-! # Searching a text

Prefixes, suffixes, occurrences and cuts, on lists of characters. Case is folded for ASCII letters
alone.
-/
namespace Rehearsal.Text

/-- `part` occurs somewhere in `whole`. -/
def occurs (part : List Char) : List Char → Bool
  | [] => part.isEmpty
  | c :: cs => part.isPrefixOf (c :: cs) || occurs part cs

def contains (whole part : String) : Bool := occurs part.toList whole.toList

/-- The text after `start`, when `whole` begins with it. -/
def afterStart? : List Char → List Char → Option (List Char)
  | [], whole => some whole
  | c :: cs, d :: ds => if c = d then afterStart? cs ds else none
  | _ :: _, [] => none

def startsWith (whole start : String) : Bool := start.toList.isPrefixOf whole.toList

def endsWith (whole tail : String) : Bool := tail.toList.isSuffixOf whole.toList

/-- Cuts at the first character satisfying `p`, which opens the second part. -/
def cutBefore (p : Char → Bool) (cs : List Char) : List Char × List Char :=
  (cs.takeWhile (! p ·), cs.dropWhile (! p ·))

/-- Cuts at the first occurrence of `mark`: the text before it and the text after it. -/
def cutAt? (mark : List Char) : List Char → Option (List Char × List Char)
  | [] => if mark.isEmpty then some ([], []) else none
  | c :: cs =>
    match afterStart? mark (c :: cs) with
    | some rest => some ([], rest)
    | none => (cutAt? mark cs).map fun (before, after) => (c :: before, after)

/-- The pieces between the occurrences of one character, empty ones included. -/
def splitOn (sep : Char) : List Char → List (List Char)
  | [] => [[]]
  | c :: cs =>
    match splitOn sep cs with
    | [] => [[c]]
    | piece :: pieces => if c = sep then [] :: piece :: pieces else (c :: piece) :: pieces

/-- Puts `new` in the place of every occurrence of `part`, found from the left. The first `skip`
characters belong to an occurrence already replaced. -/
def replaceFrom (part new : List Char) : Nat → List Char → List Char
  | _, [] => []
  | skip + 1, _ :: cs => replaceFrom part new skip cs
  | 0, c :: cs =>
    if part.isPrefixOf (c :: cs) then new ++ replaceFrom part new (part.length - 1) cs
    else c :: replaceFrom part new 0 cs

def replace (whole part new : String) : String :=
  String.ofList (replaceFrom part.toList new.toList 0 whole.toList)

/-- An ASCII capital as its small letter; every other character as it is. -/
def small (c : Char) : Char :=
  if 'A' ≤ c ∧ c ≤ 'Z' then Char.ofNat (c.toNat + 32) else c

def smallText (s : String) : String := String.ofList (s.toList.map small)

def takeText (n : Nat) (s : String) : String := String.ofList (s.toList.take n)

/-- Cuts a text after `max` characters and marks the cut with three points; a text that short is
kept. -/
def truncate (s : String) (max : Nat) : String :=
  if s.length ≤ max then s else takeText max s ++ "..."

def joinWith (sep : String) : List String → String
  | [] => ""
  | [s] => s
  | s :: rest => s ++ sep ++ joinWith sep rest

theorem occurs_nil_part (whole : List Char) : occurs [] whole = true := by
  cases whole <;> simp [occurs]

theorem afterStart?_append (start rest : List Char) :
    afterStart? start (start ++ rest) = some rest := by
  induction start with
  | nil => rfl
  | cons c cs ih => simp [afterStart?, ih]

theorem eq_append_of_afterStart? {start whole rest : List Char}
    (h : afterStart? start whole = some rest) : whole = start ++ rest := by
  induction start generalizing whole with
  | nil => simpa [afterStart?] using h
  | cons c cs ih =>
    cases whole with
    | nil => simp [afterStart?] at h
    | cons d ds =>
      by_cases hcd : c = d
      · simp only [afterStart?, hcd, if_true] at h
        simp [hcd, ih h]
      · simp [afterStart?, hcd] at h

theorem cutBefore_append (p : Char → Bool) (cs : List Char) :
    (cutBefore p cs).1 ++ (cutBefore p cs).2 = cs :=
  List.takeWhile_append_dropWhile

theorem splitOn_ne_nil (sep : Char) (cs : List Char) : splitOn sep cs ≠ [] := by
  cases cs with
  | nil => simp [splitOn]
  | cons c cs =>
    simp only [splitOn]
    split
    · simp
    · split <;> simp

theorem splitOn_append_cons (sep : Char) (before after : List Char) :
    splitOn sep (before ++ sep :: after) = splitOn sep before ++ splitOn sep after := by
  induction before with
  | nil =>
    cases h : splitOn sep after with
    | nil => exact absurd h (splitOn_ne_nil sep after)
    | cons piece pieces => simp [splitOn, h]
  | cons c cs ih =>
    cases h : splitOn sep cs with
    | nil => exact absurd h (splitOn_ne_nil sep cs)
    | cons piece pieces =>
      rw [h] at ih
      by_cases hc : c = sep <;> simp [splitOn, h, ih, hc]

theorem splitOn_of_not_mem {sep : Char} {cs : List Char} (h : sep ∉ cs) :
    splitOn sep cs = [cs] := by
  induction cs with
  | nil => rfl
  | cons c cs ih =>
    rw [List.mem_cons, not_or] at h
    simp [splitOn, ih h.2, Ne.symm h.1]

theorem not_mem_of_mem_splitOn {sep : Char} {cs piece : List Char}
    (h : piece ∈ splitOn sep cs) : sep ∉ piece := by
  induction cs generalizing piece with
  | nil => simp_all [splitOn]
  | cons c cs ih =>
    cases hs : splitOn sep cs with
    | nil => exact absurd hs (splitOn_ne_nil sep cs)
    | cons first rest =>
      simp only [splitOn, hs] at h
      have hfirst := ih (by rw [hs]; exact List.mem_cons_self)
      have hrest : ∀ other ∈ rest, sep ∉ other := fun other ho => ih (by rw [hs]; simp [ho])
      by_cases hc : c = sep
      · rw [if_pos hc, List.mem_cons, List.mem_cons] at h
        rcases h with rfl | rfl | h
        · simp
        · exact hfirst
        · exact hrest piece h
      · rw [if_neg hc, List.mem_cons] at h
        rcases h with rfl | h
        · simp [hfirst, Ne.symm hc]
        · exact hrest piece h

theorem joinWith_cons_cons (sep s t : String) (rest : List String) :
    joinWith sep (s :: t :: rest) = s ++ sep ++ joinWith sep (t :: rest) := rfl

end Rehearsal.Text
