import Rehearsal.Text.Word

/-! # Templates

A template is a text with slots, a slot being a name of word characters between double braces. The
name reaches as far as word characters do, and slots are found from the left. Every template is read
as letters and slots in a row, and writing these again gives the text back.
-/
namespace Rehearsal.Text

/-- A piece of a template: one character outside every slot, or a slot. -/
inductive Piece where
  | letter (c : Char)
  | slot (name : List Char)
deriving DecidableEq, Repr

namespace Piece

/-- The piece as it stands in the text. -/
def written : Piece → List Char
  | letter c => [c]
  | slot name => '{' :: '{' :: (name ++ ['}', '}'])

def slotName? : Piece → Option (List Char)
  | letter _ => none
  | slot name => some name

end Piece

def slotAt? : List Char → Option (List Char)
  | '{' :: '{' :: rest =>
    let name := rest.takeWhile isWord
    match name, rest.dropWhile isWord with
    | _ :: _, '}' :: '}' :: _ => some name
    | _, _ => none
  | _ => none

/-- The pieces of a text of which the first `skip` characters belong to a slot already read. -/
def piecesFrom : Nat → List Char → List Piece
  | _, [] => []
  | skip + 1, _ :: rest => piecesFrom skip rest
  | 0, c :: rest =>
    match slotAt? (c :: rest) with
    | some name => .slot name :: piecesFrom (name.length + 3) rest
    | none => .letter c :: piecesFrom 0 rest

def pieces (template : List Char) : List Piece := piecesFrom 0 template

theorem eq_of_slotAt? {cs name : List Char} (h : slotAt? cs = some name) :
    ∃ rest, cs = (Piece.slot name).written ++ rest := by
  unfold slotAt? at h
  split at h
  · rename_i rest
    simp only at h
    split at h
    · rename_i tail hname htail
      simp only [Option.some.injEq] at h
      refine ⟨tail, ?_⟩
      have happ := List.takeWhile_append_dropWhile (p := isWord) (l := rest)
      rw [htail, h] at happ
      simp [Piece.written, ← happ]
    · simp at h
  · simp at h

/-- Writing the pieces gives the text back, the skipped characters aside. -/
theorem written_piecesFrom (skip : Nat) (cs : List Char) :
    (piecesFrom skip cs).flatMap Piece.written = cs.drop skip := by
  induction cs generalizing skip with
  | nil => cases skip <;> simp [piecesFrom]
  | cons c rest ih =>
    cases skip with
    | succ skip => simp [piecesFrom, ih]
    | zero =>
      unfold piecesFrom
      split
      · rename_i name hslot
        obtain ⟨tail, htail⟩ := eq_of_slotAt? hslot
        simp only [List.flatMap_cons, ih, List.drop_zero]
        rw [htail]
        congr 1
        have hrest : rest = '{' :: (name ++ ['}', '}']) ++ tail := by
          simpa [Piece.written] using (List.cons.inj htail).2
        rw [hrest]
        simp
      · simp [Piece.written, ih]

theorem written_pieces (template : List Char) :
    (pieces template).flatMap Piece.written = template := by
  simpa [pieces] using written_piecesFrom 0 template

end Rehearsal.Text
