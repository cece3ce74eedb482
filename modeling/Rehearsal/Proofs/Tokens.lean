import Rehearsal.Json.Value

/-! # Numbers and strings as they are written

A number is read off its text whatever follows it, as long as that does not continue the number, and a
string off its quoted text, each character in one step.
-/
namespace Rehearsal.Json

open Text (digit?)
open Text.Quoted (escape quote)

namespace Tree

/-! ## Numbers -/

def IsDigits (cs : List Char) : Prop := ∀ c ∈ cs, (digit? c).isSome

/-- A text that ends a number before it, if it has a first character at all. -/
def Apart (rest : List Char) : Prop :=
  ∀ c ∈ rest.head?, isSpace c = true ∨ c = ',' ∨ c = ']' ∨ c = '\x7d'

theorem apart_nil : Apart [] := by simp [Apart]

theorem apart_cons {c : Char} {rest : List Char}
    (h : isSpace c = true ∨ c = ',' ∨ c = ']' ∨ c = '\x7d') : Apart (c :: rest) := by
  simpa [Apart] using h

/-- No character of these continues a number. -/
theorem Apart.ends {c : Char} {rest : List Char} (h : Apart (c :: rest)) :
    digit? c = none ∧ c ≠ '.' ∧ c ≠ 'e' ∧ c ≠ 'E' := by
  have hc := h c (by simp)
  simp only [isSpace, Bool.or_eq_true, decide_eq_true_eq] at hc
  rcases hc with ((((rfl | rfl) | rfl) | rfl) | rfl | rfl | rfl) <;> decide

theorem Apart.ends_of_head? {c : Char} {rest : List Char} (h : Apart rest) (hc : c ∈ rest.head?) :
    digit? c = none ∧ c ≠ '.' ∧ c ≠ 'e' ∧ c ≠ 'E' := by
  rcases rest with _ | ⟨c', rest⟩
  · simp at hc
  · obtain rfl : c' = c := by simpa using hc
    exact h.ends

theorem digitsOf_append {rest : List Char} (h : ∀ c ∈ rest.head?, digit? c = none) {digits : List Char}
    (hdigits : IsDigits digits) : digitsOf (digits ++ rest) = (digits.filterMap digit?, rest) := by
  have htake : (digits ++ rest).takeWhile (fun c => (digit? c).isSome) = digits := by
    rw [List.takeWhile_append_of_pos hdigits]
    cases rest with
    | nil => simp
    | cons c rest => simp [h c (by simp)]
  have hdrop : (digits ++ rest).dropWhile (fun c => (digit? c).isSome) = rest := by
    rw [List.dropWhile_append_of_pos hdigits]
    cases rest with
    | nil => simp
    | cons c rest => simp [h c (by simp)]
  rw [digitsOf, htake, hdrop]

theorem eq_zero_of_digit? {c : Char} (h : digit? c = some 0) : c = '0' := by
  unfold digit? at h
  split at h
  case isTrue hc =>
    have hle : 48 ≤ c.toNat := hc.1
    have hsub : c.toNat - 48 = 0 := by simpa using h
    exact Char.toNat_inj.1 (show c.toNat = 48 by omega)
  case isFalse => simp at h

theorem filterMap_ne_nil {digits : List Char} (hdigits : IsDigits digits) (h : digits ≠ []) :
    digits.filterMap digit? ≠ [] := by
  obtain ⟨c, cs, rfl⟩ := List.exists_cons_of_ne_nil h
  obtain ⟨d, hd⟩ := Option.isSome_iff_exists.1 (hdigits c (by simp))
  simp [hd]

theorem length_filterMap {digits : List Char} (hdigits : IsDigits digits) :
    (digits.filterMap digit?).length = digits.length := by
  induction digits with
  | nil => rfl
  | cons c cs ih =>
    obtain ⟨d, hd⟩ := Option.isSome_iff_exists.1 (hdigits c (by simp))
    simp [hd, ih fun c hc => hdigits c (by simp [hc])]

end Tree

/-- The parts of a number as it is written. A power of ten has a sign. -/
structure Written where
  negative : Bool
  whole : List Char
  fraction : Option (List Char)
  exponent : Option (Bool × List Char)

namespace Written

open Rehearsal.Json.Tree

def exponentChars (w : Written) : List Char :=
  w.exponent.elim [] fun (minus, digits) => 'e' :: (if minus then '-' else '+') :: digits

def fractionChars (w : Written) : List Char := w.fraction.elim [] ('.' :: ·)

def chars (w : Written) : List Char :=
  (if w.negative then ['-'] else []) ++ (w.whole ++ (w.fractionChars ++ w.exponentChars))

def numeral (w : Written) : Numeral where
  negative := w.negative
  whole := w.whole.filterMap digit?
  fraction := w.fraction.map (·.filterMap digit?)
  exponent := w.exponent.map fun (minus, digits) =>
    let n := ofDigits (digits.filterMap digit?)
    if minus then -(n : Int) else n

/-- Digits stand where digits belong, and none of the parts begins or ends too soon. -/
structure Proper (w : Written) : Prop where
  whole : IsDigits w.whole
  whole_ne : w.whole ≠ []
  no_leading_zero : w.whole.length = 1 ∨ w.whole.head? ≠ some '0'
  fraction : ∀ digits ∈ w.fraction, IsDigits digits ∧ digits ≠ []
  exponent : ∀ part ∈ w.exponent, IsDigits part.2 ∧ part.2 ≠ []

theorem digit?_ne {c : Char} (h : (digit? c).isSome) :
    c ≠ '-' ∧ c ≠ '+' ∧ c ≠ '.' ∧ c ≠ 'e' ∧ c ≠ 'E' := by
  refine ⟨?_, ?_, ?_, ?_, ?_⟩ <;> rintro rfl <;> simp [digit?] at h

variable {w : Written} {rest : List Char}

theorem exponent?_chars (hw : w.Proper) (hrest : Apart rest) :
    exponent? (w.exponentChars ++ rest) = some (w.numeral.exponent, rest) := by
  unfold exponentChars
  cases hexp : w.exponent with
  | none =>
    rcases rest with _ | ⟨c, rest⟩
    · simp [exponent?, numeral, hexp]
    · simp [exponent?, numeral, hexp, hrest.ends.2.2]
  | some part =>
    obtain ⟨minus, digits⟩ := part
    obtain ⟨hdigits, hne⟩ := hw.exponent _ hexp
    have hread := digitsOf_append (fun c hc => (hrest.ends_of_head? hc).1) hdigits
    have hsome := filterMap_ne_nil hdigits hne
    cases minus <;> simp [exponent?, exponentSignOf, hread, hsome, numeral, hexp]

/-- What follows the digits before a power of ten: its mark, or what ends the number. -/
theorem ends_exponent (hrest : Apart rest) {c : Char} (hc : c ∈ (w.exponentChars ++ rest).head?) :
    digit? c = none ∧ c ≠ '.' := by
  unfold exponentChars at hc
  cases hexp : w.exponent with
  | none =>
    rw [hexp] at hc
    exact ⟨(hrest.ends_of_head? hc).1, (hrest.ends_of_head? hc).2.1⟩
  | some part =>
    obtain rfl : 'e' = c := by simpa [hexp] using hc
    decide

theorem fraction?_chars (hw : w.Proper) (hrest : Apart rest) :
    fraction? (w.fractionChars ++ (w.exponentChars ++ rest)) =
      some (w.numeral.fraction, w.exponentChars ++ rest) := by
  unfold fractionChars
  cases hfrac : w.fraction with
  | none =>
    have hnone := fun c hc => (ends_exponent (w := w) hrest (c := c) hc).2
    generalize w.exponentChars ++ rest = after at hnone ⊢
    rcases after with _ | ⟨c, after⟩
    · simp [fraction?, numeral, hfrac]
    · have := hnone c (by simp)
      simp only [Option.elim_none, List.nil_append, numeral, hfrac, Option.map_none]
      unfold fraction?
      split
      · simp_all
      · rfl
  | some digits =>
    obtain ⟨hdigits, hne⟩ := hw.fraction _ hfrac
    have hread := digitsOf_append (fun c hc => (ends_exponent (w := w) hrest hc).1) hdigits
    have hsome := filterMap_ne_nil hdigits hne
    simp [fraction?, hread, hsome, numeral, hfrac]

theorem ends_fraction (hrest : Apart rest) {c : Char}
    (hc : c ∈ (w.fractionChars ++ (w.exponentChars ++ rest)).head?) : digit? c = none := by
  unfold fractionChars at hc
  cases hfrac : w.fraction with
  | none =>
    rw [hfrac] at hc
    exact (ends_exponent hrest hc).1
  | some digits =>
    obtain rfl : '.' = c := by simpa [hfrac] using hc
    decide

theorem signOf_chars (hw : w.Proper) (rest : List Char) :
    signOf (w.chars ++ rest) =
      (w.negative, w.whole ++ (w.fractionChars ++ (w.exponentChars ++ rest))) := by
  obtain ⟨c, cs, hwhole⟩ := List.exists_cons_of_ne_nil hw.whole_ne
  have hc := (digit?_ne (hw.whole c (by simp [hwhole]))).1
  cases hneg : w.negative with
  | true => simp [chars, hneg, signOf]
  | false =>
    simp only [chars, hneg, hwhole, List.append_assoc, List.cons_append]
    unfold signOf
    split <;> simp_all

theorem no_zero_before (hw : w.Proper) :
    ¬ (1 < w.whole.length ∧ (w.whole.filterMap digit?).head? = some 0) := by
  rintro ⟨hlong, hzero⟩
  obtain ⟨c, cs, hwhole⟩ := List.exists_cons_of_ne_nil hw.whole_ne
  obtain ⟨d, hd⟩ := Option.isSome_iff_exists.1 (hw.whole c (by simp [hwhole]))
  rcases hw.no_leading_zero with h | h
  · omega
  · have hne : c ≠ '0' := by simpa [hwhole] using h
    obtain rfl : d = 0 := by simpa [hwhole, hd] using hzero
    exact hne (eq_zero_of_digit? hd)

/-- A number is read off its text, whatever follows. -/
theorem numeral?_chars (hw : w.Proper) (hrest : Apart rest) :
    numeral? (w.chars ++ rest) = some (w.numeral, rest) := by
  have hread := digitsOf_append (fun c hc => ends_fraction (w := w) hrest hc) hw.whole
  have hsome := filterMap_ne_nil hw.whole hw.whole_ne
  have hzero := no_zero_before hw
  rw [← length_filterMap hw.whole] at hzero
  have hcheck : ((w.whole.filterMap digit?).isEmpty || (1 < (w.whole.filterMap digit?).length &&
      (w.whole.filterMap digit?).head? == some 0)) = false := by
    simpa [hsome] using hzero
  simp only [numeral?, signOf_chars hw, hread, hcheck, Bool.false_eq_true, if_false,
    fraction?_chars hw hrest, exponent?_chars hw hrest, Option.bind_some, Option.map_some]
  rfl

end Written

/-! ## Strings -/

namespace Tree

theorem hexValue?_hexDigit : ∀ n < 32, Text.hexValue? (Text.hexDigit n) = some (n % 16) := by decide

theorem hex4?_control {n : Nat} (h : n < 32) (rest : List Char) :
    hex4? ('0' :: '0' :: Text.hexDigit (n / 16) :: Text.hexDigit n :: rest) = some (n, rest) := by
  have hzero : Text.hexValue? '0' = some 0 := by decide
  have hhigh := hexValue?_hexDigit (n / 16) (by omega)
  have hlow := hexValue?_hexDigit n h
  simp only [hex4?, hzero, hhigh, hlow, Option.bind_eq_bind, Option.bind_some]
  congr 2
  omega

/-- How a character stands in quoted text: after a backslash by a letter, by its number, or as itself. -/
theorem escape_cases (c : Char) :
    (∃ letter, escape c = ['\\', letter] ∧ letter ≠ 'u' ∧ simpleEscape? letter = some c) ∨
    (c.toNat < 32 ∧
      escape c = ['\\', 'u', '0', '0', Text.hexDigit (c.toNat / 16), Text.hexDigit c.toNat]) ∨
    (c ≠ '"' ∧ c ≠ '\\' ∧ ¬ c.toNat < 32 ∧ escape c = [c]) := by
  have hback : c.toNat = 8 → c = Char.ofNat 8 := fun h => by rw [← h, Char.ofNat_toNat]
  have hfeed : c.toNat = 12 → c = Char.ofNat 12 := fun h => by rw [← h, Char.ofNat_toNat]
  unfold escape
  split
  case isTrue h => exact .inl ⟨'"', rfl, by decide, by rw [h]; rfl⟩
  split
  case isTrue h => exact .inl ⟨'\\', rfl, by decide, by rw [h]; rfl⟩
  split
  case isTrue h => exact .inl ⟨'b', rfl, by decide, by rw [hback h]; rfl⟩
  split
  case isTrue h => exact .inl ⟨'f', rfl, by decide, by rw [hfeed h]; rfl⟩
  split
  case isTrue h => exact .inl ⟨'n', rfl, by decide, by rw [h]; rfl⟩
  split
  case isTrue h => exact .inl ⟨'r', rfl, by decide, by rw [h]; rfl⟩
  split
  case isTrue h => exact .inl ⟨'t', rfl, by decide, by rw [h]; rfl⟩
  split
  case isTrue h => exact .inr (.inl ⟨h, rfl⟩)
  case isFalse hquote hslash _ _ _ _ _ h => exact .inr (.inr ⟨hquote, hslash, h, rfl⟩)

/-- One character of a text takes one step to read. -/
theorem stringFrom_escape (fuel : Nat) (acc : List Char) (c : Char) (rest : List Char) :
    stringFrom (fuel + 1) (some acc) (escape c ++ rest) = stringFrom fuel (some (c :: acc)) rest := by
  rcases escape_cases c with ⟨letter, hescape, hu, hletter⟩ | ⟨hlow, hescape⟩ |
    ⟨hquote, hslash, hlow, hescape⟩
  · simp [hescape, stringFrom, hletter]
  · have hread := hex4?_control hlow rest
    have h1 : ¬ 0xDC00 ≤ c.toNat := by omega
    have h2 : ¬ 0xD800 ≤ c.toNat := by omega
    simp [hescape, stringFrom, hread, h1, h2]
  · simp [hescape, stringFrom, hslash, hlow]

theorem stringFrom_quoted (s acc rest : List Char) {fuel : Nat} (h : s.length < fuel) :
    stringFrom fuel (some acc) (s.flatMap escape ++ '"' :: rest) =
      some (some (String.ofList (acc.reverse ++ s)), rest) := by
  induction s generalizing acc fuel with
  | nil =>
    obtain ⟨fuel, rfl⟩ := Nat.exists_eq_add_of_lt h
    simp [stringFrom]
  | cons c s ih =>
    obtain ⟨fuel, rfl⟩ : ∃ f, fuel = f + 1 := ⟨fuel - 1, by simp at h; omega⟩
    rw [List.flatMap_cons, List.append_assoc, stringFrom_escape, ih _ (by simpa using h)]
    simp

theorem length_le_quoted (s : List Char) : s.length ≤ (s.flatMap escape).length := by
  induction s with
  | nil => simp
  | cons c s ih =>
    have hc : 0 < (escape c).length := by
      rcases escape_cases c with ⟨_, h, _⟩ | ⟨_, h⟩ | ⟨_, _, _, h⟩ <;> simp [h]
    simp only [List.flatMap_cons, List.length_append, List.length_cons]
    omega

/-- A quoted text after its opening quote is read whole. -/
theorem stringFrom_quote (s : String) (rest : List Char) :
    ∃ body, (quote s).toList = '"' :: body ∧
      stringFrom ((body ++ rest).length + 1) (some []) (body ++ rest) = some (some s, rest) := by
  refine ⟨s.toList.flatMap escape ++ ['"'], by simp [quote], ?_⟩
  have hle := length_le_quoted s.toList
  rw [List.append_assoc, List.singleton_append, stringFrom_quoted _ _ _ (by
    rw [List.length_append]
    omega)]
  simp

end Tree

end Rehearsal.Json
