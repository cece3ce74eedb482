/-! # Blank characters

The characters of Unicode's white-space class, and the trimming of a text at both ends.
-/
namespace Rehearsal.Text

/-- The white space of Unicode: the ASCII controls from tab to return, the space, next line, and
the spaces and separators above ASCII. -/
def isBlank (c : Char) : Bool :=
  let n := c.toNat
  (9 ≤ n && n ≤ 13) || n == 32 || n == 0x85 || n == 0xA0 || n == 0x1680 ||
    (0x2000 ≤ n && n ≤ 0x200A) || n == 0x2028 || n == 0x2029 || n == 0x202F || n == 0x205F ||
    n == 0x3000

/-- Removes the blanks before the first and after the last other character. -/
def trimChars (cs : List Char) : List Char :=
  ((cs.dropWhile isBlank).reverse.dropWhile isBlank).reverse

def trim (s : String) : String := String.ofList (trimChars s.toList)

/-- A text of blanks only, the empty text included. -/
def allBlank (s : String) : Bool := s.toList.all isBlank

@[simp] theorem trimChars_nil : trimChars [] = [] := rfl

theorem dropWhile_eq_nil_of_all {p : Char → Bool} {cs : List Char} (h : cs.all p = true) :
    cs.dropWhile p = [] := by
  induction cs with
  | nil => rfl
  | cons c cs ih =>
    simp only [List.all_cons, Bool.and_eq_true] at h
    simp [List.dropWhile, h.1, ih h.2]

theorem trimChars_eq_nil_of_all {cs : List Char} (h : cs.all isBlank = true) :
    trimChars cs = [] := by
  simp [trimChars, dropWhile_eq_nil_of_all h]

end Rehearsal.Text
