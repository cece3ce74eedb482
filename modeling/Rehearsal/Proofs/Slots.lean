import Rehearsal.Proofs.StepGrammar

/-! # The slots of a template

What filling in a template does, said without the scan that does it. Two slots never share a
character, so a template falls in one way only into its slots and the stretches between them. The
texts put in take the places of the slots, and the names without a text are told in the same order.
-/
namespace Rehearsal

namespace Text

/-- What may stand between the braces of a slot. -/
def IsName (name : List Char) : Prop := name ≠ [] ∧ ∀ c ∈ name, isWord c = true

/-- A slot of this name begins at place `i` of the text. -/
def SlotAt (text : List Char) (i : Nat) (name : List Char) : Prop :=
  IsName name ∧ (Piece.slot name).written <+: text.drop i

/-- How many characters a slot takes, its braces included. -/
def width (name : List Char) : Nat := name.length + 4

theorem length_written_slot (name : List Char) : (Piece.slot name).written.length = width name := by
  simp [Piece.written, width]

/-- A name has no brace, so a slot opens only where it begins. -/
theorem opens_iff {name : List Char} (h : IsName name) (k : Nat) :
    (Piece.slot name).written[k]? = some '{' ↔ k < 2 := by
  match k with
  | 0 => simp [Piece.written]
  | 1 => simp [Piece.written]
  | k + 2 =>
    constructor
    · intro hk
      have hmem : '{' ∈ name ++ ['}', '}'] := List.mem_of_getElem? (by simpa [Piece.written] using hk)
      have hname : '{' ∈ name := by simpa using hmem
      have hword := h.2 _ hname
      rw [isWord_brace.1] at hword
      cases hword
    · omega

theorem SlotAt.getElem? {text name : List Char} {i : Nat} (h : SlotAt text i name) {k : Nat}
    (hk : k < width name) : text[i + k]? = (Piece.slot name).written[k]? := by
  obtain ⟨rest, hrest⟩ := h.2
  rw [← List.getElem?_drop, ← hrest, List.getElem?_append_left]
  rwa [length_written_slot]

/-- The scan finds a slot at the head of a text exactly where one stands. -/
theorem slotAt?_iff {cs name : List Char} :
    slotAt? cs = some name ↔ IsName name ∧ (Piece.slot name).written <+: cs := by
  constructor
  · intro h
    obtain ⟨rest, hrest⟩ := eq_of_slotAt? h
    refine ⟨?_, rest, hrest.symm⟩
    unfold slotAt? at h
    split at h
    · rename_i tail
      simp only at h
      split at h
      · rename_i c word hname htail
        rw [Option.some.injEq] at h
        subst h
        constructor
        · rw [hname]
          exact List.cons_ne_nil _ _
        · intro d hd
          exact List.all_eq_true.1 List.all_takeWhile d hd
      · cases h
    · cases h
  · rintro ⟨⟨hne, hword⟩, rest, rfl⟩
    obtain ⟨c, word, rfl⟩ := List.exists_cons_of_ne_nil hne
    have hstop : isWord '}' = false := isWord_brace.2
    have htake : ((c :: word) ++ '}' :: '}' :: rest).takeWhile isWord = c :: word := by
      rw [List.takeWhile_append_of_pos hword]
      simp [hstop]
    have hdrop : ((c :: word) ++ '}' :: '}' :: rest).dropWhile isWord = '}' :: '}' :: rest := by
      rw [List.dropWhile_append_of_pos hword]
      simp [hstop]
    have htext : (Piece.slot (c :: word)).written ++ rest =
        '{' :: '{' :: ((c :: word) ++ '}' :: '}' :: rest) := by simp [Piece.written]
    rw [htext]
    simp only [slotAt?, htake, hdrop]

theorem SlotAt.name_eq {text name other : List Char} {i : Nat} (h : SlotAt text i name)
    (h' : SlotAt text i other) : name = other :=
  Option.some.inj ((slotAt?_iff.2 h).symm.trans (slotAt?_iff.2 h'))

/-- A slot that begins later begins after the end: the two braces that open it would have to stand
inside the earlier one, which has no two of them past its own. -/
theorem SlotAt.after {text name other : List Char} {i j : Nat} (h : SlotAt text i name)
    (h' : SlotAt text j other) (hij : i < j) : i + width name ≤ j := by
  rcases Nat.lt_or_ge j (i + width name) with hin | hend
  case inr => exact hend
  have hopen : ∀ k < 2, text[j + k]? = some '{' := by
    intro k hk
    rw [h'.getElem? (by unfold width; omega), opens_iff h'.1]
    exact hk
  have hsame : ∀ k < 2, j + k < i + width name → j + k < i + 2 := by
    intro k hk hinside
    have hplace : i + (j + k - i) = j + k := by omega
    have hbrace := hopen k hk
    rw [← hplace, h.getElem? (by omega), opens_iff h.1] at hbrace
    omega
  exfalso
  have hfirst := hsame 0 (by omega) (by omega)
  have hroom : 4 ≤ width name := by unfold width; omega
  have hsecond := hsame 1 (by omega) (by omega)
  omega

theorem SlotAt.apart {text name other : List Char} {i j : Nat} (h : SlotAt text i name)
    (h' : SlotAt text j other) :
    (i = j ∧ name = other) ∨ i + width name ≤ j ∨ j + width other ≤ i := by
  obtain hlt | heq | hgt := Nat.lt_trichotomy i j
  · exact .inr (.inl (h.after h' hlt))
  · subst heq
    exact .inl ⟨rfl, h.name_eq h'⟩
  · exact .inr (.inr (h'.after h hgt))

theorem SlotAt.append {text name : List Char} {i : Nat} (h : SlotAt text i name)
    (more : List Char) : SlotAt (text ++ more) i name := by
  refine ⟨h.1, ?_⟩
  by_cases hi : i ≤ text.length
  · rw [List.drop_append_of_le_length hi]
    exact h.2.trans (List.prefix_append _ _)
  · have hnil : text.drop i = [] := List.drop_eq_nil_of_le (by omega)
    have hempty := h.2
    rw [hnil, List.prefix_nil] at hempty
    simp [Piece.written] at hempty

/-- A slot that ends inside the first part of a text stands in it. -/
theorem SlotAt.of_append {text more name : List Char} {i : Nat} (h : SlotAt (text ++ more) i name)
    (hend : i + width name ≤ text.length) : SlotAt text i name := by
  refine ⟨h.1, ?_⟩
  have hprefix := h.2
  rw [List.drop_append_of_le_length (by omega)] at hprefix
  apply List.prefix_of_prefix_length_le hprefix (List.prefix_append _ _)
  rw [length_written_slot, List.length_drop]
  omega

theorem slotAt_append_iff (before text name : List Char) (i : Nat) :
    SlotAt (before ++ text) (before.length + i) name ↔ SlotAt text i name := by
  have hdrop : (before ++ text).drop (before.length + i) = text.drop i := by
    rw [List.drop_append, List.drop_eq_nil_of_le (by omega), Nat.add_sub_cancel_left, List.nil_append]
  rw [SlotAt, SlotAt, hdrop]

/-- A stretch of a text that no slot stands in. -/
def SlotFree (stretch : List Char) : Prop := ∀ i name, ¬ SlotAt stretch i name

theorem slotFree_nil : SlotFree [] := by
  intro i name h
  have hempty := h.2
  rw [List.drop_nil, List.prefix_nil] at hempty
  simp [Piece.written] at hempty

theorem SlotFree.tail {c : Char} {stretch : List Char} (h : SlotFree (c :: stretch)) :
    SlotFree stretch := fun i name hslot =>
  h (1 + i) name ((slotAt_append_iff [c] stretch name i).2 hslot)

/-! ### The pieces of a text -/

theorem piecesFrom_eq (skip : Nat) (cs : List Char) : piecesFrom skip cs = pieces (cs.drop skip) := by
  induction cs generalizing skip with
  | nil => cases skip <;> simp [pieces, piecesFrom]
  | cons c rest ih =>
    cases skip with
    | zero => rfl
    | succ skip => simpa [piecesFrom] using ih skip

theorem pieces_nil : pieces [] = [] := rfl

theorem pieces_letter {c : Char} {rest : List Char} (h : slotAt? (c :: rest) = none) :
    pieces (c :: rest) = .letter c :: pieces rest := by
  simp only [pieces, piecesFrom, h]

theorem pieces_slot {name : List Char} (h : IsName name) (rest : List Char) :
    pieces ((Piece.slot name).written ++ rest) = .slot name :: pieces rest := by
  have hfound := slotAt?_iff.2 ⟨h, List.prefix_append (Piece.slot name).written rest⟩
  have htext : (Piece.slot name).written ++ rest =
      '{' :: (('{' :: name ++ ['}', '}']) ++ rest) := by simp [Piece.written]
  rw [htext] at hfound ⊢
  have hlen : name.length + 3 = ('{' :: name ++ ['}', '}']).length := by simp
  simp only [pieces, piecesFrom, hfound]
  rw [piecesFrom_eq, hlen, List.drop_left]
  rfl

/-- Every text is read from the left as slots and letters at which no slot begins. -/
theorem slot_induction {P : List Char → Prop} (nil : P [])
    (slot : ∀ name rest, IsName name → P rest → P ((Piece.slot name).written ++ rest))
    (letter : ∀ c rest, slotAt? (c :: rest) = none → P rest → P (c :: rest)) :
    (text : List Char) → P text
  | [] => nil
  | c :: rest => by
    cases hslot : slotAt? (c :: rest) with
    | none => exact letter c rest hslot (slot_induction nil slot letter rest)
    | some name =>
      obtain ⟨hname, after, hafter⟩ := slotAt?_iff.1 hslot
      have hshort : after.length < (c :: rest).length := by
        rw [← hafter, List.length_append, length_written_slot]
        unfold width
        omega
      rw [← hafter]
      exact slot name after hname (slot_induction nil slot letter after)
termination_by text => text.length
decreasing_by
  · exact Nat.lt_succ_self rest.length
  · exact hshort

/-! ### Layouts -/

/-- A text as a first stretch, and slots with the stretch after each. -/
structure Layout where
  first : List Char
  slots : List (List Char × List Char)
deriving DecidableEq, Repr

namespace Layout

/-- The stretches with a text in the place of each slot. -/
def filled (l : Layout) (value : List Char → List Char) : List Char :=
  l.first ++ l.slots.flatMap fun slot => value slot.1 ++ slot.2

def written (l : Layout) : List Char := l.filled fun name => (Piece.slot name).written

def names (l : Layout) : List (List Char) := l.slots.map Prod.fst

def stretches (l : Layout) : List (List Char) := l.first :: l.slots.map Prod.snd

def pieces (l : Layout) : List Piece :=
  l.first.map .letter ++ l.slots.flatMap fun slot => .slot slot.1 :: slot.2.map .letter

def ofPieces : List Piece → Layout
  | [] => ⟨[], []⟩
  | .letter c :: rest => ⟨c :: (ofPieces rest).first, (ofPieces rest).slots⟩
  | .slot name :: rest => ⟨[], (name, (ofPieces rest).first) :: (ofPieces rest).slots⟩

/-- The layout divides a text into its slots and stretches that have none. -/
structure Divides (l : Layout) (text : List Char) : Prop where
  written : l.written = text
  named : ∀ name ∈ l.names, IsName name
  free : ∀ stretch ∈ l.stretches, SlotFree stretch

theorem written_cons (first name stretch : List Char) (rest : List (List Char × List Char)) :
    written ⟨first, (name, stretch) :: rest⟩ =
      first ++ (Piece.slot name).written ++ written ⟨stretch, rest⟩ := by
  simp [written, filled]

theorem pieces_cons (first name stretch : List Char) (rest : List (List Char × List Char)) :
    pieces ⟨first, (name, stretch) :: rest⟩ =
      first.map .letter ++ .slot name :: pieces ⟨stretch, rest⟩ := by
  simp [pieces]

theorem ofPieces_letters (stretch : List Char) (ps : List Piece) :
    ofPieces (stretch.map .letter ++ ps) = ⟨stretch ++ (ofPieces ps).first, (ofPieces ps).slots⟩ := by
  induction stretch with
  | nil => rfl
  | cons c stretch ih => simp [ofPieces, ih]

theorem ofPieces_pieces (l : Layout) : ofPieces l.pieces = l := by
  obtain ⟨first, slots⟩ := l
  induction slots generalizing first with
  | nil => simpa [pieces, ofPieces] using ofPieces_letters first []
  | cons slot rest ih =>
    obtain ⟨name, stretch⟩ := slot
    rw [pieces_cons, ofPieces_letters, ofPieces, ih]
    simp

theorem Divides.next {first name stretch text : List Char} {rest : List (List Char × List Char)}
    (h : Divides ⟨first, (name, stretch) :: rest⟩ text) :
    Divides ⟨stretch, rest⟩ (Layout.written ⟨stretch, rest⟩) := by
  constructor
  · rfl
  · intro other hother
    exact h.named other (List.mem_cons_of_mem _ hother)
  · intro other hother
    exact h.free other (List.mem_cons_of_mem _ hother)

end Layout

/-- A stretch without slots is read as its letters, when a slot begins behind it or nothing does. -/
theorem pieces_stretch {stretch tail : List Char} (free : SlotFree stretch)
    (htail : tail = [] ∨ ∃ name, SlotAt tail 0 name) :
    pieces (stretch ++ tail) = stretch.map .letter ++ pieces tail := by
  induction stretch with
  | nil => rfl
  | cons c stretch ih =>
    have hnone : slotAt? (c :: (stretch ++ tail)) = none := by
      rw [Option.eq_none_iff_forall_ne_some]
      intro name hname
      have hslot : SlotAt ((c :: stretch) ++ tail) 0 name := slotAt?_iff.1 hname
      obtain rfl | ⟨next, hnext⟩ := htail
      · rw [List.append_nil] at hslot
        exact free 0 name hslot
      · have hbehind := (slotAt_append_iff (c :: stretch) tail next 0).2 hnext
        obtain ⟨hzero, -⟩ | hend | hend := hslot.apart hbehind
        · simp at hzero
        · exact free 0 name (hslot.of_append (by simpa using hend))
        · simp [width] at hend
    rw [List.cons_append, pieces_letter hnone, ih free.tail]
    rfl

/-- What is read of a text that is divided. -/
theorem Layout.Divides.pieces_eq {l : Layout} {text : List Char} (h : l.Divides text) :
    Text.pieces text = l.pieces := by
  rw [← h.written]
  obtain ⟨first, slots⟩ := l
  induction slots generalizing first text with
  | nil =>
    have hread := pieces_stretch (h.free first (by simp [Layout.stretches])) (.inl rfl)
    simpa [Layout.written, Layout.filled, Layout.pieces, pieces_nil] using hread
  | cons slot rest ih =>
    obtain ⟨name, stretch⟩ := slot
    have hname : IsName name := h.named name (by simp [Layout.names])
    have hfree : SlotFree first := h.free first (by simp [Layout.stretches])
    have hslot : SlotAt ((Piece.slot name).written ++ Layout.written ⟨stretch, rest⟩) 0 name :=
      ⟨hname, List.prefix_append _ _⟩
    rw [Layout.written_cons, List.append_assoc, pieces_stretch hfree (.inr ⟨name, hslot⟩),
      pieces_slot hname, ih stretch h.next, Layout.pieces_cons]

/-- The layout of a text. -/
def layout (text : List Char) : Layout := .ofPieces (pieces text)

theorem Layout.Divides.eq_layout {l : Layout} {text : List Char} (h : l.Divides text) :
    l = layout text := by
  rw [layout, h.pieces_eq, ofPieces_pieces]

theorem layout_divides (text : List Char) : (layout text).Divides text := by
  induction text using slot_induction with
  | nil =>
    constructor
    · rfl
    · simp [layout, pieces_nil, Layout.ofPieces, Layout.names]
    · simp [layout, pieces_nil, Layout.ofPieces, Layout.stretches, slotFree_nil]
  | slot name rest hname ih =>
    have hlayout : layout ((Piece.slot name).written ++ rest) =
        ⟨[], (name, (layout rest).first) :: (layout rest).slots⟩ := by
      rw [layout, pieces_slot hname, Layout.ofPieces]
      rfl
    rw [hlayout]
    constructor
    · rw [Layout.written_cons, List.nil_append]
      exact congrArg _ ih.written
    · intro other hother
      obtain rfl | hrest := List.mem_cons.1 hother
      · exact hname
      · exact ih.named other hrest
    · intro stretch hstretch
      obtain rfl | hrest := List.mem_cons.1 hstretch
      · exact slotFree_nil
      · exact ih.free stretch hrest
  | letter c rest hnone ih =>
    have hlayout : layout (c :: rest) = ⟨c :: (layout rest).first, (layout rest).slots⟩ := by
      rw [layout, pieces_letter hnone, Layout.ofPieces]
      rfl
    have hwritten : Layout.written ⟨c :: (layout rest).first, (layout rest).slots⟩ = c :: rest := by
      simpa [Layout.written, Layout.filled] using ih.written
    have hfirst : SlotFree (layout rest).first := ih.free _ List.mem_cons_self
    rw [hlayout]
    constructor
    · exact hwritten
    · exact ih.named
    · intro stretch hstretch
      obtain rfl | hrest := List.mem_cons.1 hstretch
      · intro i name hslot
        cases i with
        | zero =>
          -- a slot at the letter itself would have been found there
          have hthere := hslot.append ((layout rest).slots.flatMap
            fun slot => (Piece.slot slot.1).written ++ slot.2)
          have hfound : slotAt? (c :: rest) = some name := by
            rw [← hwritten]
            exact slotAt?_iff.2 hthere
          rw [hnone] at hfound
          cases hfound
        | succ i =>
          rw [Nat.add_comm] at hslot
          exact hfirst i name ((slotAt_append_iff [c] _ name i).1 hslot)
      · exact ih.free stretch (List.mem_cons_of_mem _ hrest)

/-- Of three braces the last two make the slot. -/
example : layout "\x7b\x7b\x7ba\x7d\x7d\x7d".toList = ⟨['{'], [(['a'], ['}'])]⟩ := by decide +kernel

/-- The slots of a layout are all the slots of the text, each where the part before it ends. -/
theorem Layout.Divides.slotAt_iff {l : Layout} {text : List Char} (h : l.Divides text) (i : Nat)
    (name : List Char) :
    SlotAt text i name ↔ ∃ before stretch after,
      l.slots = before ++ (name, stretch) :: after ∧ i = (Layout.written ⟨l.first, before⟩).length := by
  rw [← h.written]
  obtain ⟨first, slots⟩ := l
  induction slots generalizing first text i with
  | nil =>
    have hfree : SlotFree first := h.free first (by simp [Layout.stretches])
    have hnone : ¬ SlotAt (Layout.written ⟨first, []⟩) i name := by
      simpa [Layout.written, Layout.filled] using hfree i name
    simp [hnone]
  | cons slot rest ih =>
    obtain ⟨other, stretch⟩ := slot
    have hother : IsName other := h.named other (by simp [Layout.names])
    have hfree : SlotFree first := h.free first (by simp [Layout.stretches])
    have hhead : SlotAt (Layout.written ⟨first, (other, stretch) :: rest⟩) first.length other := by
      rw [Layout.written_cons, List.append_assoc]
      exact (slotAt_append_iff first _ other 0).2 ⟨hother, List.prefix_append _ _⟩
    have hlen : (first ++ (Piece.slot other).written).length = first.length + width other := by
      rw [List.length_append, length_written_slot]
    constructor
    · intro hslot
      obtain ⟨rfl, rfl⟩ | hend | hend := hslot.apart hhead
      · exact ⟨[], stretch, rest, rfl, by simp [Layout.written, Layout.filled]⟩
      · rw [Layout.written_cons, List.append_assoc] at hslot
        exact absurd (hslot.of_append hend) (hfree i name)
      · obtain ⟨k, rfl⟩ := Nat.exists_eq_add_of_le hend
        rw [Layout.written_cons, ← hlen, slotAt_append_iff] at hslot
        obtain ⟨before, later, after, hsplit, hplace⟩ := (ih k stretch h.next).1 hslot
        refine ⟨(other, stretch) :: before, later, after, congrArg _ hsplit, ?_⟩
        rw [Layout.written_cons, List.length_append, hlen, ← hplace]
    · rintro ⟨before, later, after, hsplit, hplace⟩
      cases before with
      | nil =>
        obtain ⟨hslot, -⟩ := List.cons.inj hsplit
        obtain ⟨rfl, -⟩ := Prod.mk.inj hslot
        have hzero : i = first.length := by simpa [Layout.written, Layout.filled] using hplace
        rw [hzero]
        exact hhead
      | cons slot before =>
        obtain ⟨hslot, hrest⟩ := List.cons.inj hsplit
        subst hslot
        have hthere := (ih (Layout.written ⟨stretch, before⟩).length stretch h.next).2
          ⟨before, later, after, hrest, rfl⟩
        rw [hplace, Layout.written_cons, Layout.written_cons, List.length_append, slotAt_append_iff]
        exact hthere

end Text

namespace Scope

open Text

/-- What stands in the place of a slot: the text of its name, and the slot itself without one. -/
def textFor (s : Scope) (name : List Char) : List Char :=
  match s.get? (String.ofList name) with
  | some value => value.toList
  | none => (Piece.slot name).written

theorem flatMap_fillPiece (s : Scope) (l : Layout) :
    l.pieces.flatMap s.fillPiece = l.filled s.textFor := by
  have hletter : ∀ stretch : List Char, (stretch.map Piece.letter).flatMap s.fillPiece = stretch := by
    intro stretch
    induction stretch with
    | nil => rfl
    | cons c stretch ih => simp [fillPiece, Piece.slotName?, Piece.written, ih]
  have hslot : ∀ name, s.fillPiece (.slot name) = s.textFor name := by
    intro name
    cases hget : s.get? (String.ofList name) <;> simp [fillPiece, Piece.slotName?, textFor, hget]
  obtain ⟨first, slots⟩ := l
  simp [Layout.pieces, Layout.filled, List.flatMap_assoc, hletter, hslot]

theorem toList_fillSlots (s : Scope) {l : Layout} {template : String}
    (h : l.Divides template.toList) : (s.fillSlots template).toList = l.filled s.textFor := by
  rw [fillSlots, String.toList_ofList, h.pieces_eq, flatMap_fillPiece]

theorem unset_eq (s : Scope) {l : Layout} {template : String} (h : l.Divides template.toList) :
    s.unset template = (l.names.map String.ofList).filter fun name => !s.contains name := by
  have hletter : ∀ stretch : List Char, (stretch.map Piece.letter).filterMap (fun p =>
      (p.slotName?.map String.ofList).filter fun name => !s.contains name) = [] := by
    intro stretch
    rw [List.filterMap_eq_nil_iff]
    intro p hp
    obtain ⟨c, -, rfl⟩ := List.mem_map.1 hp
    rfl
  obtain ⟨first, slots⟩ := l
  rw [unset, h.pieces_eq, Layout.pieces, List.filterMap_append, hletter, List.nil_append]
  clear h
  induction slots with
  | nil => rfl
  | cons slot rest ih =>
    rw [List.flatMap_cons, List.filterMap_append, ih, List.filterMap_cons, hletter]
    by_cases hset : s.contains (String.ofList slot.1) = true <;>
      simp [Piece.slotName?, Layout.names, Option.filter, hset]

/-- A text without two opening braces is all one stretch, so that looking through it changes nothing. -/
theorem fill_eq_fillSlots (s : Scope) (template : String) : s.fill template = s.fillSlots template := by
  rw [fill]
  split
  · rfl
  · rename_i hbraces
    have hfree : SlotFree template.toList := by
      intro i name hslot
      obtain ⟨after, hafter⟩ := hslot.2
      apply hbraces
      rw [contains_braces_iff]
      have hsplit := List.take_append_drop i template.toList
      rw [← hafter] at hsplit
      refine ⟨template.toList.take i, name ++ ['}', '}'] ++ after, hsplit.symm.trans ?_⟩
      simp [Piece.written]
    have hdivides : Layout.Divides ⟨template.toList, []⟩ template.toList := by
      constructor
      · simp [Layout.written, Layout.filled]
      · simp [Layout.names]
      · simpa [Layout.stretches] using hfree
    rw [← String.toList_inj, s.toList_fillSlots hdivides]
    simp [Layout.filled]

/-- What filling in a template comes to when `l` is its layout. -/
structure Fills (s : Scope) (template : String) (l : Layout) : Prop where
  divides : l.Divides template.toList
  unique : ∀ other : Layout, other.Divides template.toList → other = l
  slots : ∀ i name, SlotAt template.toList i name ↔ ∃ before stretch after,
    l.slots = before ++ (name, stretch) :: after ∧ i = (Layout.written ⟨l.first, before⟩).length
  filled : (s.fill template).toList = l.filled s.textFor
  unset : s.unset template = (l.names.map String.ofList).filter fun name => !s.contains name
  complete : s.unset template = [] ↔
    ∀ name ∈ l.names, ∃ value : String,
      s.get? (String.ofList name) = some value ∧ s.textFor name = value.toList

/-- The slots of a template keep apart, it has one layout, and what it is filled in to is that layout
with the texts in the places of the slots. -/
theorem fills_every_slot_once (s : Scope) (template : String) :
    (∀ i j name other, SlotAt template.toList i name → SlotAt template.toList j other →
      (i = j ∧ name = other) ∨ i + width name ≤ j ∨ j + width other ≤ i) ∧
    (∃ l, s.Fills template l) ∧
    s.fill template = s.fillSlots template := by
  refine ⟨fun i j name other h h' => h.apart h', ?_, s.fill_eq_fillSlots template⟩
  have hdivides := layout_divides template.toList
  have hunset := s.unset_eq hdivides
  refine ⟨layout template.toList, ?_⟩
  constructor
  case divides => exact hdivides
  case unique => exact fun other hother => hother.eq_layout
  case slots => exact hdivides.slotAt_iff
  case filled => rw [fill_eq_fillSlots, s.toList_fillSlots hdivides]
  case unset => exact hunset
  case complete =>
    rw [hunset, List.filter_eq_nil_iff]
    constructor
    · intro hall name hname
      have hset := hall _ (List.mem_map_of_mem hname)
      obtain ⟨value, hvalue⟩ : ∃ value, s.get? (String.ofList name) = some value := by
        apply Option.ne_none_iff_exists'.1
        simpa [contains] using hset
      exact ⟨value, hvalue, by simp [textFor, hvalue]⟩
    · intro hall text htext
      obtain ⟨name, hname, rfl⟩ := List.mem_map.1 htext
      obtain ⟨value, hvalue, -⟩ := hall name hname
      simp [contains, hvalue]

end Scope

end Rehearsal
