import Rehearsal.Proofs.Tokens

/-! # Texts that spell a document

The grammar of documents, free in the blanks between the parts of a list: a relation of trees and
texts. What spells a tree is read as that tree, and in no more rounds than it has characters.
-/
namespace Rehearsal.Json

open Text (digit?)
open Text.Quoted (escape quote)

namespace Tree

/-! ## The grammar -/

def Blank (cs : List Char) : Prop := ∀ c ∈ cs, isSpace c = true

/-- What a text can spell: a document, or what stands between the brackets of a list that is not
empty. -/
inductive Piece where
  | tree (t : Tree)
  | items (ts : List Tree)
  | members (ms : List (Option String × Tree))

/-- Blanks may stand before an item, a key, the colon, a member's value and the bracket that closes. -/
inductive Spells : Piece → List Char → Prop where
  | null : Spells (.tree .null) ['n', 'u', 'l', 'l']
  | true_ : Spells (.tree (.bool true)) ['t', 'r', 'u', 'e']
  | false_ : Spells (.tree (.bool false)) ['f', 'a', 'l', 's', 'e']
  | numeral {w : Written} : w.Proper → Spells (.tree (.numeral w.numeral)) w.chars
  | string (s : String) : Spells (.tree (.string (some s))) (quote s).toList
  | noItems : Spells (.tree (.array [])) ['[', ']']
  | noMembers : Spells (.tree (.object [])) ['\x7b', '\x7d']
  | array {ts cs blanks} : Spells (.items ts) cs → Blank blanks →
      Spells (.tree (.array ts)) ('[' :: (cs ++ (blanks ++ [']'])))
  | object {ms cs blanks} : Spells (.members ms) cs → Blank blanks →
      Spells (.tree (.object ms)) ('\x7b' :: (cs ++ (blanks ++ ['\x7d'])))
  | lastItem {t cs blanks} : Blank blanks → Spells (.tree t) cs → Spells (.items [t]) (blanks ++ cs)
  | item {t cs blanks ts rest} : Blank blanks → Spells (.tree t) cs → Spells (.items ts) rest →
      Spells (.items (t :: ts)) (blanks ++ (cs ++ ',' :: rest))
  | lastMember {t cs blanks between} (key : String) : Blank blanks → Blank between →
      Spells (.tree t) cs →
      Spells (.members [(some key, t)]) (blanks ++ ((quote key).toList ++ ':' :: (between ++ cs)))
  | member {t cs blanks between ms rest} (key : String) : Blank blanks → Blank between →
      Spells (.tree t) cs → Spells (.members ms) rest →
      Spells (.members ((some key, t) :: ms))
        (blanks ++ ((quote key).toList ++ ':' :: (between ++ (cs ++ ',' :: rest))))

@[simp] theorem skipSpace_blank {blanks : List Char} (h : Blank blanks) (cs : List Char) :
    skipSpace (blanks ++ cs) = skipSpace cs :=
  List.dropWhile_append_of_pos h

theorem skipSpace_cons {c : Char} (h : isSpace c = false) (cs : List Char) :
    skipSpace (c :: cs) = c :: cs :=
  List.dropWhile_cons_of_neg (by simp [h])

/-- Behind its blanks the text goes on, and not with the bracket that closes a list. -/
def Begins (closing : Char) (cs : List Char) : Prop :=
  ∃ c rest, skipSpace cs = c :: rest ∧ c ≠ closing

theorem begins_cons {closing c : Char} (hspace : isSpace c = false) (h : c ≠ closing)
    (rest : List Char) : Begins closing (c :: rest) :=
  ⟨c, rest, skipSpace_cons hspace rest, h⟩

theorem Begins.behind {closing : Char} {cs blanks : List Char} (h : Begins closing cs)
    (hblanks : Blank blanks) : Begins closing (blanks ++ cs) := by
  rwa [Begins, skipSpace_blank hblanks]

theorem Begins.append {closing : Char} {cs : List Char} (h : Begins closing cs) (more : List Char) :
    Begins closing (cs ++ more) := by
  obtain ⟨c, rest, hskip, hne⟩ := h
  refine ⟨c, rest ++ more, ?_, hne⟩
  rw [skipSpace] at hskip ⊢
  rw [List.dropWhile_append, hskip]
  rfl

theorem Begins.ne {closing : Char} {cs : List Char} (h : Begins closing cs) (after : List Char) :
    skipSpace cs ≠ closing :: after := by
  obtain ⟨c, rest, hskip, hne⟩ := h
  rw [hskip]
  simp [hne]

/-! ## One round of the reader -/

variable {fuel : Nat} {frames : List Frame} {rest : List Char}

theorem readFrom_blank {blanks : List Char} (h : Blank blanks) (turn : Turn) (cs : List Char) :
    readFrom (fuel + 1) frames turn (blanks ++ cs) = readFrom (fuel + 1) frames turn cs := by
  cases turn <;> simp only [readFrom, skipSpace_blank h]

theorem not_isSpace_of_number {c : Char} (hc : c = '-' ∨ (digit? c).isSome) : isSpace c = false := by
  rcases hc with rfl | hc
  · decide
  · simp only [isSpace, Bool.or_eq_false_iff, decide_eq_false_iff_not]
    refine ⟨⟨⟨?_, ?_⟩, ?_⟩, ?_⟩ <;> rintro rfl <;> simp [digit?] at hc

theorem ne_of_number {c : Char} (hc : c = '-' ∨ (digit? c).isSome) :
    c ≠ '[' ∧ c ≠ ']' ∧ c ≠ '\x7b' ∧ c ≠ '"' ∧ c ≠ 't' ∧ c ≠ 'f' ∧ c ≠ 'n' := by
  rcases hc with rfl | hc
  · decide
  · refine ⟨?_, ?_, ?_, ?_, ?_, ?_, ?_⟩ <;> rintro rfl <;> simp [digit?] at hc

theorem readFrom_number {c : Char} (hc : c = '-' ∨ (digit? c).isSome) {cs : List Char} {n : Numeral}
    (hread : numeral? (c :: cs) = some (n, rest)) :
    readFrom (fuel + 1) frames .wanted (c :: cs) = readFrom fuel frames (.got (.numeral n)) rest := by
  have hne := ne_of_number hc
  rw [readFrom]
  simp only [skipSpace_cons (not_isSpace_of_number hc)]
  split
  case h_8 => rw [hread]
  all_goals simp_all

theorem Written.begins {w : Written} (hw : w.Proper) :
    ∃ c cs, w.chars = c :: cs ∧ (c = '-' ∨ (digit? c).isSome) := by
  obtain ⟨c, cs, hwhole⟩ := List.exists_cons_of_ne_nil hw.whole_ne
  cases hneg : w.negative with
  | true => exact ⟨'-', _, by simp only [Written.chars, hneg]; rfl, .inl rfl⟩
  | false =>
    exact ⟨c, _, by simp only [Written.chars, hneg, hwhole]; rfl, .inr (hw.whole c (by simp [hwhole]))⟩

theorem readFrom_string (s : String) :
    readFrom (fuel + 1) frames .wanted ((quote s).toList ++ rest) =
      readFrom fuel frames (.got (.string (some s))) rest := by
  obtain ⟨body, hbody, hread⟩ := stringFrom_quote s rest
  rw [hbody, List.cons_append, readFrom, skipSpace_cons (by decide)]
  simp only [hread]

theorem key?_quote {blanks : List Char} (h : Blank blanks) (key : String) (after : List Char) :
    key? (blanks ++ ((quote key).toList ++ ':' :: after)) = some (some key, after) := by
  obtain ⟨body, hbody, hread⟩ := stringFrom_quote key (':' :: after)
  rw [hbody, key?, skipSpace_blank h, List.cons_append, skipSpace_cons (by decide)]
  simp only [hread, Option.bind_eq_bind, Option.bind_some,
    skipSpace_cons (show isSpace ':' = false by decide)]

theorem readFrom_array (h : ∀ after, skipSpace rest ≠ ']' :: after) :
    readFrom (fuel + 1) frames .wanted ('[' :: rest) =
      readFrom fuel (.items [] :: frames) .wanted rest := by
  simp only [readFrom, skipSpace_cons (show isSpace '[' = false by decide)]

theorem readFrom_object {key : Option String} {after : List Char}
    (h : ∀ after, skipSpace rest ≠ '\x7d' :: after) (hkey : key? rest = some (key, after)) :
    readFrom (fuel + 1) frames .wanted ('\x7b' :: rest) =
      readFrom fuel (.members [] key :: frames) .wanted after := by
  simp only [readFrom, skipSpace_cons (show isSpace '\x7b' = false by decide), hkey]

theorem readFrom_next_item (t : Tree) (read : List Tree) :
    readFrom (fuel + 1) (.items read :: frames) (.got t) (',' :: rest) =
      readFrom fuel (.items (t :: read) :: frames) .wanted rest := rfl

theorem readFrom_last_item (t : Tree) (read : List Tree) :
    readFrom (fuel + 1) (.items read :: frames) (.got t) (']' :: rest) =
      readFrom fuel frames (.got (.array (read.reverse ++ [t]))) rest := by
  rw [← List.reverse_cons]
  rfl

theorem readFrom_next_member (t : Tree) (read : List (Option String × Tree)) (key : Option String)
    {next : Option String} {after : List Char} (hkey : key? rest = some (next, after)) :
    readFrom (fuel + 1) (.members read key :: frames) (.got t) (',' :: rest) =
      readFrom fuel (.members ((key, t) :: read) next :: frames) .wanted after := by
  simp [readFrom, skipSpace_cons, isSpace, hkey]

theorem readFrom_last_member (t : Tree) (read : List (Option String × Tree)) (key : Option String) :
    readFrom (fuel + 1) (.members read key :: frames) (.got t) ('\x7d' :: rest) =
      readFrom fuel frames (.got (.object (read.reverse ++ [(key, t)]))) rest := by
  rw [← List.reverse_cons]
  rfl

/-! ## What spells a tree is read as that tree -/

/-- Reading a piece: in at most as many rounds as it has characters the reader comes to the tree, or past
the bracket that closes the list. -/
def Piece.Reads : Piece → List Char → Prop
  | .tree t, cs => Begins ']' cs ∧ ∃ n < cs.length, ∀ fuel frames rest, Apart rest →
      readFrom (fuel + n + 1) frames .wanted (cs ++ rest) = readFrom fuel frames (.got t) rest
  | .items ts, cs => Begins ']' cs ∧
      ∃ n ≤ cs.length, ∀ fuel frames read blanks rest, Blank blanks →
        readFrom (fuel + n + 1) (.items read :: frames) .wanted (cs ++ (blanks ++ ']' :: rest)) =
          readFrom fuel frames (.got (.array (read.reverse ++ ts))) rest
  | .members ms, cs => Begins '\x7d' cs ∧
      ∃ key after, (∀ more, key? (cs ++ more) = some (some key, after ++ more)) ∧
        ∃ n ≤ cs.length, ∀ fuel frames read blanks rest, Blank blanks →
          readFrom (fuel + n + 1) (.members read (some key) :: frames) .wanted
              (after ++ (blanks ++ '\x7d' :: rest)) =
            readFrom fuel frames (.got (.object (read.reverse ++ ms))) rest

theorem begins_quote {closing : Char} (h : '"' ≠ closing) (s : String) :
    Begins closing (quote s).toList := by
  obtain ⟨body, hbody, -⟩ := stringFrom_quote s []
  rw [hbody]
  exact begins_cons (by decide) h body

theorem reads_numeral {w : Written} (hw : w.Proper) :
    (Piece.tree (.numeral w.numeral)).Reads w.chars := by
  obtain ⟨c, cs, hchars, hc⟩ := Written.begins hw
  refine ⟨?_, 0, by simp [hchars], fun fuel frames rest hrest => ?_⟩
  · rw [hchars]
    exact begins_cons (not_isSpace_of_number hc) (ne_of_number hc).2.1 cs
  · have hread := Written.numeral?_chars hw hrest
    rw [hchars, List.cons_append] at hread ⊢
    exact readFrom_number hc hread

theorem reads_string (s : String) : (Piece.tree (.string (some s))).Reads (quote s).toList := by
  refine ⟨begins_quote (by decide) s, 0, ?_, fun fuel frames rest _ => readFrom_string s⟩
  obtain ⟨body, hbody, -⟩ := stringFrom_quote s []
  simp [hbody]

theorem apart_of_blank {blanks : List Char} (h : Blank blanks) {c : Char}
    (hc : isSpace c = true ∨ c = ',' ∨ c = ']' ∨ c = '\x7d') (rest : List Char) :
    Apart (blanks ++ c :: rest) := by
  rcases blanks with _ | ⟨b, blanks⟩
  · exact apart_cons hc
  · exact apart_cons (.inl (h b (by simp)))

theorem reads_lastItem {t : Tree} {cs blanks : List Char} (hblanks : Blank blanks)
    (h : (Piece.tree t).Reads cs) : (Piece.items [t]).Reads (blanks ++ cs) := by
  obtain ⟨hbegins, n, hn, hread⟩ := h
  refine ⟨hbegins.behind hblanks, n + 1, ?_, ?_⟩
  · rw [List.length_append]
    omega
  · intro fuel frames read between rest hbetween
    rw [List.append_assoc, readFrom_blank hblanks, show fuel + (n + 1) + 1 = (fuel + 1) + n + 1 by omega,
      hread _ _ _ (apart_of_blank hbetween (by simp) rest), readFrom_blank hbetween, readFrom_last_item]

theorem reads_item {t : Tree} {cs blanks : List Char} {ts : List Tree} {others : List Char}
    (hblanks : Blank blanks) (h : (Piece.tree t).Reads cs) (hothers : (Piece.items ts).Reads others) :
    (Piece.items (t :: ts)).Reads (blanks ++ (cs ++ ',' :: others)) := by
  obtain ⟨hbegins, n, hn, hread⟩ := h
  obtain ⟨-, m, hm, hnext⟩ := hothers
  refine ⟨(hbegins.append _).behind hblanks, n + m + 2, ?_, ?_⟩
  · simp only [List.length_append, List.length_cons]
    omega
  · intro fuel frames read between rest hbetween
    rw [List.append_assoc, readFrom_blank hblanks, List.append_assoc, List.cons_append,
      show fuel + (n + m + 2) + 1 = (fuel + m + 1 + 1) + n + 1 by omega,
      hread _ _ _ (apart_cons (by simp)), readFrom_next_item, hnext _ _ _ _ _ hbetween]
    simp

theorem reads_array {ts : List Tree} {cs blanks : List Char} (h : (Piece.items ts).Reads cs)
    (hblanks : Blank blanks) : (Piece.tree (.array ts)).Reads ('[' :: (cs ++ (blanks ++ [']']))) := by
  obtain ⟨hbegins, n, hn, hread⟩ := h
  refine ⟨begins_cons (by decide) (by decide) _, n + 1, ?_, ?_⟩
  · simp only [List.length_append, List.length_cons]
    omega
  · intro fuel frames rest _
    have hinside := hread fuel frames [] blanks rest hblanks
    simp only [List.append_assoc, List.cons_append, List.nil_append]
    rw [show fuel + (n + 1) + 1 = (fuel + n + 1) + 1 by omega, readFrom_array (hbegins.append _).ne,
      hinside]
    rfl

theorem key?_append_quote {blanks : List Char} (h : Blank blanks) (key : String)
    (after more : List Char) :
    key? (blanks ++ ((quote key).toList ++ ':' :: after) ++ more) = some (some key, after ++ more) := by
  rw [List.append_assoc, List.append_assoc, List.cons_append, key?_quote h]

theorem reads_lastMember {t : Tree} {cs blanks between : List Char} (key : String)
    (hblanks : Blank blanks) (hbetween : Blank between) (h : (Piece.tree t).Reads cs) :
    (Piece.members [(some key, t)]).Reads
      (blanks ++ ((quote key).toList ++ ':' :: (between ++ cs))) := by
  obtain ⟨-, n, hn, hread⟩ := h
  refine ⟨((begins_quote (by decide) key).append _).behind hblanks, key, between ++ cs,
    key?_append_quote hblanks key _, n + 1, ?_, ?_⟩
  · simp only [List.length_append, List.length_cons]
    omega
  · intro fuel frames read closing rest hclosing
    rw [List.append_assoc, readFrom_blank hbetween, show fuel + (n + 1) + 1 = (fuel + 1) + n + 1 by omega,
      hread _ _ _ (apart_of_blank hclosing (by simp) rest), readFrom_blank hclosing,
      readFrom_last_member]

theorem reads_member {t : Tree} {cs blanks between : List Char} {ms : List (Option String × Tree)}
    {others : List Char} (key : String) (hblanks : Blank blanks) (hbetween : Blank between)
    (h : (Piece.tree t).Reads cs) (hothers : (Piece.members ms).Reads others) :
    (Piece.members ((some key, t) :: ms)).Reads
      (blanks ++ ((quote key).toList ++ ':' :: (between ++ (cs ++ ',' :: others)))) := by
  obtain ⟨-, n, hn, hread⟩ := h
  obtain ⟨-, next, after, hkey, m, hm, hnext⟩ := hothers
  refine ⟨((begins_quote (by decide) key).append _).behind hblanks, key, _,
    key?_append_quote hblanks key _, n + m + 2, ?_, ?_⟩
  · simp only [List.length_append, List.length_cons]
    omega
  · intro fuel frames read closing rest hclosing
    rw [List.append_assoc, readFrom_blank hbetween, List.append_assoc, List.cons_append,
      show fuel + (n + m + 2) + 1 = (fuel + m + 1 + 1) + n + 1 by omega,
      hread _ _ _ (apart_cons (by simp)), readFrom_next_member t read _ (hkey _),
      hnext _ _ _ _ _ hclosing]
    simp

theorem reads_object {ms : List (Option String × Tree)} {cs blanks : List Char}
    (h : (Piece.members ms).Reads cs) (hblanks : Blank blanks) :
    (Piece.tree (.object ms)).Reads ('\x7b' :: (cs ++ (blanks ++ ['\x7d']))) := by
  obtain ⟨hbegins, key, after, hkey, n, hn, hread⟩ := h
  refine ⟨begins_cons (by decide) (by decide) _, n + 1, ?_, ?_⟩
  · simp only [List.length_append, List.length_cons]
    omega
  · intro fuel frames rest _
    have hinside := hread fuel frames [] blanks rest hblanks
    simp only [List.append_assoc, List.cons_append, List.nil_append]
    rw [show fuel + (n + 1) + 1 = (fuel + n + 1) + 1 by omega,
      readFrom_object (hbegins.append _).ne (hkey _), hinside]
    rfl

/-- A text of a few characters that one round reads whole. -/
theorem reads_word {t : Tree} {c : Char} {cs : List Char} (hspace : isSpace c = false) (hne : c ≠ ']')
    (h : ∀ fuel frames rest, readFrom (fuel + 1) frames .wanted (c :: cs ++ rest) =
      readFrom fuel frames (.got t) rest) : (Piece.tree t).Reads (c :: cs) :=
  ⟨begins_cons hspace hne cs, 0, by simp, fun fuel frames rest _ => h fuel frames rest⟩

theorem Spells.reads {p : Piece} {cs : List Char} (h : Spells p cs) : p.Reads cs := by
  induction h with
  | null => exact reads_word (by decide) (by decide) fun _ _ _ => rfl
  | true_ => exact reads_word (by decide) (by decide) fun _ _ _ => rfl
  | false_ => exact reads_word (by decide) (by decide) fun _ _ _ => rfl
  | noItems => exact reads_word (by decide) (by decide) fun _ _ _ => rfl
  | noMembers => exact reads_word (by decide) (by decide) fun _ _ _ => rfl
  | numeral hw => exact reads_numeral hw
  | string s => exact reads_string s
  | array _ hblanks ih => exact reads_array ih hblanks
  | object _ hblanks ih => exact reads_object ih hblanks
  | lastItem hblanks _ ih => exact reads_lastItem hblanks ih
  | item hblanks _ _ ih ihs => exact reads_item hblanks ih ihs
  | lastMember key hblanks hbetween _ ih => exact reads_lastMember key hblanks hbetween ih
  | member key hblanks hbetween _ _ ih ihs => exact reads_member key hblanks hbetween ih ihs

/-- A text that spells a tree is read as it. -/
theorem read_of_spells {t : Tree} {text : String} (h : Spells (.tree t) text.toList) :
    read text = .ok t := by
  obtain ⟨-, n, hn, hread⟩ := h.reads
  obtain ⟨fuel, hfuel⟩ : ∃ fuel, 2 * text.toList.length + 2 = (fuel + 1) + n + 1 :=
    ⟨2 * text.toList.length - n, by omega⟩
  have hall := hread (fuel + 1) [] [] apart_nil
  rw [List.append_nil] at hall
  simp only [read, hfuel, hall]
  rfl

end Tree

end Rehearsal.Json
