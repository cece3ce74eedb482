import Rehearsal.Proofs.Spelling

/-! # Values and their texts

Both texts of a value, the one on a single line and the one with an item to a line, spell the document
it is the value of, and a reader gets the value back if it has room for its containers. Of binary
numbers only this is said: what is written of them is a number in the grammar.
-/
namespace Rehearsal

open Json (Numeral Number Written)
open Json.Tree (IsDigits ofDigits Spells)

namespace Text

theorem digit?_digitChar (d : Nat) : digit? (digitChar d) = some (d % 10) := by
  have hten : ∀ r < 10, digit? (Char.ofNat (48 + r)) = some r := by decide
  exact hten (d % 10) (Nat.mod_lt d (by decide))

theorem isDigits_digitsLeast (fuel n : Nat) : IsDigits (digitsLeast fuel n) := by
  induction fuel generalizing n with
  | zero => simp [digitsLeast, IsDigits]
  | succ fuel ih =>
    intro c hc
    simp only [digitsLeast, List.mem_cons] at hc
    rcases hc with rfl | hc
    · simp [digit?_digitChar]
    · split at hc
      · simp at hc
      · exact ih _ c hc

theorem ofDigits_append (ds : List Nat) (d : Nat) : ofDigits (ds ++ [d]) = ofDigits ds * 10 + d := by
  simp [ofDigits]

/-- The digits of a number, most significant first. -/
def digits (n : Nat) : List Char := (digitsLeast (n + 1) n).reverse

theorem ofDigits_digitsLeast {fuel n : Nat} (h : n < fuel) :
    ofDigits ((digitsLeast fuel n).reverse.filterMap digit?) = n := by
  induction fuel generalizing n with
  | zero => omega
  | succ fuel ih =>
    simp only [digitsLeast]
    split
    · next hsmall => simp [digit?_digitChar, ofDigits, Nat.mod_eq_of_lt hsmall]
    · have hrest : n / 10 < fuel := by omega
      simp only [List.reverse_cons, List.filterMap_append, List.filterMap_cons, digit?_digitChar,
        List.filterMap_nil, ofDigits_append, ih hrest]
      omega

theorem ofDigits_digits (n : Nat) : ofDigits ((digits n).filterMap digit?) = n :=
  ofDigits_digitsLeast (Nat.lt_succ_self n)

theorem isDigits_digits (n : Nat) : IsDigits (digits n) := fun c hc =>
  isDigits_digitsLeast (n + 1) n c (List.mem_reverse.1 hc)

theorem digits_ne_nil (n : Nat) : digits n ≠ [] := by
  simp [digits, digitsLeast]

/-- The last of the digits from the least on is no zero, unless the number is zero. -/
theorem head?_digits {n : Nat} (h : n ≠ 0) : (digits n).head? ≠ some '0' := by
  rw [digits, List.head?_reverse]
  suffices hlast : ∀ fuel n, n < fuel → n ≠ 0 → (digitsLeast fuel n).getLast? ≠ some '0' from
    hlast (n + 1) n (Nat.lt_succ_self n) h
  intro fuel
  induction fuel with
  | zero => intro n hn; omega
  | succ fuel ih =>
    intro n hn hne
    simp only [digitsLeast]
    split
    · next hsmall =>
      have hten : ∀ r < 10, r ≠ 0 → Char.ofNat (48 + r) ≠ '0' := by decide
      simpa [digitChar, Nat.mod_eq_of_lt hsmall] using hten n hsmall hne
    · next hbig =>
      have hrest := ih (n / 10) (by omega) (by omega)
      obtain ⟨fuel, rfl⟩ : ∃ f, fuel = f + 1 := ⟨fuel - 1, by omega⟩
      simpa [digitsLeast] using hrest

theorem toList_decimal (n : Nat) : (decimal n).toList = digits n := by
  simp [decimal, digits]

theorem length_digits_zero : (digits 0).length = 1 := by decide

end Text

namespace Json

open Text (digits)

/-- A whole number as it is written. -/
def Written.ofNat (negative : Bool) (n : Nat) : Written := ⟨negative, digits n, none, none⟩

theorem Written.proper_ofNat (negative : Bool) (n : Nat) : (Written.ofNat negative n).Proper where
  whole := Text.isDigits_digits n
  whole_ne := Text.digits_ne_nil n
  no_leading_zero := by
    by_cases h : n = 0
    · exact .inl (h ▸ Text.length_digits_zero)
    · exact .inr (Text.head?_digits h)
  fraction := by simp [Written.ofNat]
  exponent := by simp [Written.ofNat]

end Json

namespace Decimal.Shortest

open Text (digits)

theorem isDigits_append {cs ds : List Char} (hcs : IsDigits cs) (hds : IsDigits ds) :
    IsDigits (cs ++ ds) := fun c hc => (List.mem_append.1 hc).elim (hcs c) (hds c)

theorem isDigits_zeros (n : Nat) : IsDigits (List.replicate n '0') := fun c hc => by
  rw [List.eq_of_mem_replicate hc]
  decide

theorem isDigits_padded (width n : Nat) : IsDigits (Text.padded width n).toList := by
  simp only [Text.padded, String.toList_ofList]
  exact isDigits_append (isDigits_zeros _) (Text.isDigits_digits n)

variable {s : Shortest}

/-- The power of ten of the first digit. -/
def lead (s : Shortest) : Int := s.scale + (Text.digits s.digits).length - 1

theorem length_decimal (n : Nat) : (Text.decimal n).length = (Text.digits n).length := by
  rw [← String.length_toList, Text.toList_decimal]

/-- The parts of a number other than zero as they are written. -/
def written (negative : Bool) (s : Shortest) : Written :=
  let digits := Text.digits s.digits
  if -5 ≤ s.lead ∧ s.lead ≤ 15 then
    if 0 ≤ s.scale then ⟨negative, digits ++ List.replicate s.scale.toNat '0', some ['0'], none⟩
    else if 0 ≤ s.lead then
      ⟨negative, digits.take (s.lead.toNat + 1), some (digits.drop (s.lead.toNat + 1)), none⟩
    else ⟨negative, ['0'], some (List.replicate (-s.lead - 1).toNat '0' ++ digits), none⟩
  else
    ⟨negative, digits.take 1, if digits.length = 1 then none else some (digits.drop 1),
      some (decide (s.lead < 0), (Text.padded 2 s.lead.natAbs).toList)⟩

theorem chars_written (hzero : s.digits ≠ 0) (negative : Bool) :
    (written negative s).chars = (if negative then ['-'] else []) ++ s.text.toList := by
  have hlead : s.scale + ((Text.decimal s.digits).length : Int) - 1 = s.lead := by
    rw [lead, length_decimal]
  have hpoint : ".".toList = ['.'] := rfl
  have hend : ".0".toList = ['.', '0'] := rfl
  have hstart : "0.".toList = ['0', '.'] := rfl
  unfold written text
  simp only [hlead, hzero, if_false]
  split
  · split
    · simp [Written.chars, Written.fractionChars, Written.exponentChars, Text.toList_decimal, hend]
    · split
      · simp [Written.chars, Written.fractionChars, Written.exponentChars, Text.toList_decimal,
          Text.joinWith, hpoint]
      · simp [Written.chars, Written.fractionChars, Written.exponentChars, Text.toList_decimal, hstart]
  · rcases hdigits : Text.digits s.digits with _ | ⟨d, _ | ⟨d', rest⟩⟩
    · exact absurd hdigits (Text.digits_ne_nil _)
    · by_cases hneg : s.lead < 0 <;>
        simp [Written.chars, Written.fractionChars, Written.exponentChars, Text.toList_decimal, hdigits,
          hneg]
    · by_cases hneg : s.lead < 0 <;>
        simp [Written.chars, Written.fractionChars, Written.exponentChars, Text.toList_decimal, hdigits,
          hneg]

theorem proper_written (hzero : s.digits ≠ 0) (negative : Bool) : (written negative s).Proper := by
  have hall := Text.isDigits_digits s.digits
  have hne := Text.digits_ne_nil s.digits
  have hhead := Text.head?_digits hzero
  have hpos : 0 < (Text.digits s.digits).length := List.length_pos_iff.2 hne
  unfold written
  dsimp only
  split
  · split
    · refine ⟨isDigits_append hall (isDigits_zeros _), by simp [hne], .inr ?_, ?_, by simp⟩
      · rwa [List.head?_append, Option.or_of_isSome (by simpa using hne)]
      · simp [IsDigits]
        decide
    · split
      · next hscale hlead =>
        refine ⟨fun c hc => hall c (List.mem_of_mem_take hc), ?_, .inr ?_, ?_, by simp⟩
        · simp [hne]
        · rwa [List.head?_take, if_neg (by omega)]
        · have hshort : s.lead.toNat + 1 < (Text.digits s.digits).length := by
            unfold lead at *
            omega
          simp only [Option.mem_def, Option.some.injEq, forall_eq']
          exact ⟨fun c hc => hall c (List.mem_of_mem_drop hc), by simpa using hshort⟩
      · refine ⟨by simp [IsDigits]; decide, by simp, .inl rfl, ?_, by simp⟩
        simp only [Option.mem_def, Option.some.injEq, forall_eq']
        exact ⟨isDigits_append (isDigits_zeros _) hall, by simp [hne]⟩
  · refine ⟨fun c hc => hall c (List.mem_of_mem_take hc), by simp [hne], .inl ?_, ?_, ?_⟩
    · simp
      omega
    · intro ds hds
      split at hds
      · simp at hds
      · obtain rfl : List.drop 1 _ = ds := by simpa using hds
        refine ⟨fun c hc => hall c (List.mem_of_mem_drop hc), ?_⟩
        simp only [ne_eq, List.drop_eq_nil_iff]
        omega
    · simp only [Option.mem_def, Option.some.injEq, forall_eq']
      refine ⟨isDigits_padded _ _, ?_⟩
      simp [Text.padded, Text.digitsLeast]

/-- However large or small, what is written is a number in the grammar. -/
theorem exists_written (negative : Bool) (s : Shortest) :
    ∃ w : Written, w.Proper ∧ w.chars = (if negative then ['-'] else []) ++ s.text.toList := by
  by_cases hzero : s.digits = 0
  · have htext : s.text.toList = ['0', '.', '0'] := by
      rw [text, if_pos hzero]
      rfl
    refine ⟨⟨negative, ['0'], some ['0'], none⟩, ?_, ?_⟩
    · constructor <;> simp [IsDigits] <;> decide
    · simp [Written.chars, Written.fractionChars, Written.exponentChars, htext]
  · exact ⟨written negative s, proper_written hzero negative, chars_written hzero negative⟩

end Decimal.Shortest
/-! ## Numbers -/

namespace Json

open Text (digits)

namespace Number

theorem exists_written (n : Number) : ∃ w : Written, w.Proper ∧ w.chars = n.text.toList := by
  cases n with
  | natural n =>
    refine ⟨.ofNat false n, Written.proper_ofNat false n, ?_⟩
    simp [Written.chars, Written.ofNat, Written.fractionChars, Written.exponentChars, text,
      Text.toList_decimal]
  | below n =>
    refine ⟨.ofNat true n, Written.proper_ofNat true n, ?_⟩
    have hminus : "-".toList = ['-'] := rfl
    simp [Written.chars, Written.ofNat, Written.fractionChars, Written.exponentChars, text,
      Text.toList_decimal, hminus]
  | real x =>
    obtain ⟨w, hw, hchars⟩ := Decimal.Shortest.exists_written x.negative (.ofBinary x)
    refine ⟨w, hw, ?_⟩
    rw [hchars, text, Decimal.Binary64.text]
    cases x.negative <;> simp

/-- The numeral of a number is that of its parts as written. -/
theorem numeralOf_eq {n : Number} {w : Written} (hw : w.Proper) (h : w.chars = n.text.toList) :
    Value.numeralOf n = w.numeral := by
  have hread := Written.numeral?_chars hw Tree.apart_nil
  rw [List.append_nil, h] at hread
  rw [Value.numeralOf, hread]

/-- A number in the range of its kind. What is written of a binary number is taken to be read as it. -/
def Sound : Number → Prop
  | natural n => n ≤ Text.wordMax
  | below n => 0 < n ∧ n ≤ Decimal.twoTo 63
  | real x => (Value.numeralOf (.real x)).number? = some (.real x)

theorem number?_ofNat (negative : Bool) (n : Nat) :
    (Written.ofNat negative n).numeral.number? =
      if negative = false ∧ n ≤ Text.wordMax then some (.natural n)
      else if negative = true ∧ 0 < n ∧ n ≤ Decimal.twoTo 63 then some (.below n)
      else ((Written.ofNat negative n).numeral.real?).map .real := by
  have hvalue := Text.ofDigits_digits n
  rw [Tree.ofDigits] at hvalue
  simp only [Numeral.number?, Written.numeral, Written.ofNat, Option.map_none, hvalue]

theorem number?_numeralOf {n : Number} (h : n.Sound) : (Value.numeralOf n).number? = some n := by
  cases n with
  | natural n =>
    have hchars : (Written.ofNat false n).chars = (natural n).text.toList := by
      simp [Written.chars, Written.ofNat, Written.fractionChars, Written.exponentChars, text,
        Text.toList_decimal]
    rw [numeralOf_eq (Written.proper_ofNat false n) hchars, number?_ofNat, if_pos ⟨rfl, h⟩]
  | below n =>
    have hchars : (Written.ofNat true n).chars = (below n).text.toList := by
      have hminus : "-".toList = ['-'] := rfl
      simp [Written.chars, Written.ofNat, Written.fractionChars, Written.exponentChars, text,
        Text.toList_decimal, hminus]
    rw [numeralOf_eq (Written.proper_ofNat true n) hchars, number?_ofNat, if_neg (by simp),
      if_pos ⟨rfl, h⟩]
  | real x => exact h

end Number

/-! ## Values -/

theorem Tree.Blank.append {cs ds : List Char} (hcs : Tree.Blank cs) (hds : Tree.Blank ds) :
    Tree.Blank (cs ++ ds) := fun c hc => (List.mem_append.1 hc).elim (hcs c) (hds c)

namespace Value

theorem spells_number (n : Number) : Spells (.tree (.numeral (numeralOf n))) n.text.toList := by
  obtain ⟨w, hw, hchars⟩ := n.exists_written
  rw [Number.numeralOf_eq hw hchars, ← hchars]
  exact .numeral hw

theorem blank_nil : Tree.Blank [] := by simp [Tree.Blank]

theorem blank_newline : Tree.Blank ['\n'] := by
  simp [Tree.Blank]
  decide

theorem blank_space : Tree.Blank [' '] := by
  simp [Tree.Blank]
  decide

theorem blank_indent (depth : Nat) : Tree.Blank (indent depth).toList := by
  intro c hc
  rw [indent, String.toList_ofList] at hc
  rw [List.eq_of_mem_replicate hc]
  decide

theorem spells_bool (b : Bool) : Spells (.tree (.bool b)) (if b then "true" else "false").toList := by
  cases b with
  | true => exact .true_
  | false => exact .false_

mutual

theorem spells_compact : ∀ v : Value, Spells (.tree v.toTree) v.compact.toList
  | .null => .null
  | .bool b => spells_bool b
  | .number n => spells_number n
  | .string s => .string s
  | .array [] => .noItems
  | .object [] => .noMembers
  | .array (v :: vs) => by
    have h := Spells.array (spells_compactItems (v :: vs) (by simp)) blank_nil
    simpa [compact, toTree] using h
  | .object (m :: ms) => by
    have h := Spells.object (spells_compactMembers (m :: ms) (by simp)) blank_nil
    simpa [compact, toTree] using h

theorem spells_compactItems : ∀ vs : List Value, vs ≠ [] →
    Spells (.items (toTrees vs)) (compactItems vs).toList
  | [], h => absurd rfl h
  | [v], _ => .lastItem blank_nil (spells_compact v)
  | v :: w :: vs, _ => by
    have h := Spells.item blank_nil (spells_compact v) (spells_compactItems (w :: vs) (by simp))
    simpa [compactItems, toTrees] using h

theorem spells_compactMembers : ∀ ms : List (String × Value), ms ≠ [] →
    Spells (.members (toMembers ms)) (compactMembers ms).toList
  | [], h => absurd rfl h
  | [(k, v)], _ => by
    have h := Spells.lastMember k blank_nil blank_nil (spells_compact v)
    simpa [compactMembers, toMembers] using h
  | (k, v) :: m :: ms, _ => by
    have h := Spells.member k blank_nil blank_nil (spells_compact v)
      (spells_compactMembers (m :: ms) (by simp))
    simpa [compactMembers, toMembers] using h

end

mutual

theorem spells_pretty (depth : Nat) : ∀ v : Value, Spells (.tree v.toTree) (v.pretty depth).toList
  | .null => by simpa [pretty, toTree] using Spells.null
  | .bool b => spells_bool b
  | .number n => spells_number n
  | .string s => .string s
  | .array [] => by simpa [pretty, toTree, toTrees] using Spells.noItems
  | .object [] => by simpa [pretty, toTree, toMembers] using Spells.noMembers
  | .array (v :: vs) => by
    have h := Spells.array (spells_prettyItems (depth + 1) (v :: vs) ['\n'] blank_newline (by simp))
      (blank_newline.append (blank_indent depth))
    simpa [pretty, toTree] using h
  | .object (m :: ms) => by
    have h := Spells.object (spells_prettyMembers (depth + 1) (m :: ms) ['\n'] blank_newline (by simp))
      (blank_newline.append (blank_indent depth))
    simpa [pretty, toTree] using h

theorem spells_prettyItems (depth : Nat) : ∀ (vs : List Value) (blanks : List Char),
    Tree.Blank blanks → vs ≠ [] →
    Spells (.items (toTrees vs)) (blanks ++ (prettyItems depth vs).toList)
  | [], _, _, h => absurd rfl h
  | [v], blanks, hblanks, _ => by
    have h := Spells.lastItem (hblanks.append (blank_indent depth)) (spells_pretty depth v)
    simpa [prettyItems, toTrees] using h
  | v :: w :: vs, blanks, hblanks, _ => by
    have h := Spells.item (hblanks.append (blank_indent depth)) (spells_pretty depth v)
      (spells_prettyItems depth (w :: vs) ['\n'] blank_newline (by simp))
    simpa [prettyItems, toTrees] using h

theorem spells_prettyMembers (depth : Nat) : ∀ (ms : List (String × Value)) (blanks : List Char),
    Tree.Blank blanks → ms ≠ [] →
    Spells (.members (toMembers ms)) (blanks ++ (prettyMembers depth ms).toList)
  | [], _, _, h => absurd rfl h
  | [(k, v)], blanks, hblanks, _ => by
    have h :=
      Spells.lastMember k (hblanks.append (blank_indent depth)) blank_space (spells_pretty depth v)
    simpa [prettyMembers, toMembers] using h
  | (k, v) :: m :: ms, blanks, hblanks, _ => by
    have h := Spells.member k (hblanks.append (blank_indent depth)) blank_space (spells_pretty depth v)
      (spells_prettyMembers depth (m :: ms) ['\n'] blank_newline (by simp))
    simpa [prettyMembers, toMembers] using h

end

/-- Both texts of a value are read as the document it is the value of. -/
theorem read_pretty (v : Value) (depth : Nat) : Tree.read (v.pretty depth) = .ok v.toTree :=
  Tree.read_of_spells (spells_pretty depth v)

theorem read_compact (v : Value) : Tree.read v.compact = .ok v.toTree :=
  Tree.read_of_spells (spells_compact v)

end Value
end Json
/-! ## Values back from their documents -/

namespace Json

open Number (Sound)

namespace Value

mutual

/-- How many containers stand inside one another. -/
def height : Value → Nat
  | .array items => itemsHeight items + 1
  | .object members => membersHeight members + 1
  | _ => 0

def itemsHeight : List Value → Nat
  | [] => 0
  | v :: vs => max (height v) (itemsHeight vs)

def membersHeight : List (String × Value) → Nat
  | [] => 0
  | (_, v) :: ms => max (height v) (membersHeight ms)

end

theorem itemsHeight_le {vs : List Value} {n : Nat} : itemsHeight vs ≤ n ↔ ∀ v ∈ vs, v.height ≤ n := by
  induction vs with
  | nil => simp [itemsHeight]
  | cons v vs ih => rw [itemsHeight, Nat.max_le, ih, List.forall_mem_cons]

theorem membersHeight_le {ms : List (String × Value)} {n : Nat} :
    membersHeight ms ≤ n ↔ ∀ m ∈ ms, m.2.height ≤ n := by
  induction ms with
  | nil => simp [membersHeight]
  | cons m ms ih => rw [membersHeight, Nat.max_le, ih, List.forall_mem_cons]

/-- A value as a reader makes them: its numbers in range, the members of its objects sorted by key,
each key once. -/
inductive Proper : Value → Prop where
  | null : Proper .null
  | bool (b : Bool) : Proper (.bool b)
  | number {n : Number} : n.Sound → Proper (.number n)
  | string (s : String) : Proper (.string s)
  | array {items : List Value} : (∀ v ∈ items, Proper v) → Proper (.array items)
  | object {members : List (String × Value)} : (∀ m ∈ members, Proper m.2) →
      members.Pairwise (fun m m' => m.1 < m'.1) → Proper (.object members)

theorem insertMember_of_lt {α : Type} {key : String} {ms : List (String × α)}
    (h : ∀ m ∈ ms, m.1 < key) (v : α) : insertMember key v ms = ms ++ [(key, v)] := by
  induction ms with
  | nil => rfl
  | cons m ms ih =>
    have hlt : m.1 < key := h m (by simp)
    have hne : key ≠ m.1 := by
      rintro heq
      exact String.lt_irrefl m.1 (heq ▸ hlt)
    simp [insertMember, hne, String.lt_asymm hlt, ih fun m hm => h m (by simp [hm])]

theorem sortedMembers_of_pairwise {α : Type} {ms : List (String × α)}
    (h : ms.Pairwise (fun m m' => m.1 < m'.1)) : sortedMembers ms = ms := by
  suffices hacc : ∀ (ms acc : List (String × α)), (acc ++ ms).Pairwise (fun m m' => m.1 < m'.1) →
      ms.foldl (fun acc (m : String × α) => insertMember m.1 m.2 acc) acc = acc ++ ms from
    hacc ms [] h
  intro ms
  induction ms with
  | nil => simp
  | cons m ms ih =>
    intro acc hacc
    have hlast : ∀ m' ∈ acc, m'.1 < m.1 := fun m' hm' =>
      (List.pairwise_append.1 hacc).2.2 m' hm' m (by simp)
    rw [List.foldl_cons, insertMember_of_lt hlast, ih _ (by simpa using hacc)]
    simp

theorem itemsOfTrees?_toTrees {room : Nat} {vs : List Value}
    (h : ∀ v ∈ vs, ofTree? room v.toTree = some v) : itemsOfTrees? room (toTrees vs) = some vs := by
  induction vs with
  | nil => rfl
  | cons v vs ih =>
    have hv := h v (by simp)
    have hvs := ih fun v hv => h v (by simp [hv])
    simp [toTrees, itemsOfTrees?, hv, hvs]

theorem membersOfTrees?_toMembers {room : Nat} {ms : List (String × Value)}
    (h : ∀ m ∈ ms, ofTree? room m.2.toTree = some m.2) :
    membersOfTrees? room (toMembers ms) = some ms := by
  induction ms with
  | nil => rfl
  | cons m ms ih =>
    have hm := h m (by simp)
    have hms := ih fun m hm => h m (by simp [hm])
    simp [toMembers, membersOfTrees?, hm, hms]

/-- A reader with room for all its containers gets the value back. -/
theorem ofTree?_toTree {v : Value} (hv : v.Proper) {room : Nat} (hroom : v.height ≤ room) :
    ofTree? room v.toTree = some v := by
  induction hv generalizing room with
  | null => simp [toTree, ofTree?]
  | bool b => simp [toTree, ofTree?]
  | number hn => simp [toTree, ofTree?, Number.number?_numeralOf hn]
  | string s => simp [toTree, ofTree?]
  | @array items _ ih =>
    obtain ⟨room, rfl⟩ : ∃ r, room = r + 1 := ⟨room - 1, by rw [height] at hroom; omega⟩
    have hin := itemsHeight_le.1 (Nat.le_of_succ_le_succ hroom)
    simp [toTree, ofTree?, itemsOfTrees?_toTrees fun v hv => ih v hv (hin v hv)]
  | @object members _ hsorted ih =>
    obtain ⟨room, rfl⟩ : ∃ r, room = r + 1 := ⟨room - 1, by rw [height] at hroom; omega⟩
    have hin := membersHeight_le.1 (Nat.le_of_succ_le_succ hroom)
    simp [toTree, ofTree?, membersOfTrees?_toMembers fun m hm => ih m hm (hin m hm),
      sortedMembers_of_pairwise hsorted]

end Value
end Json
end Rehearsal
