import Rehearsal.Proofs.Asking
import Rehearsal.Proofs.Deeds
import Rehearsal.Proofs.Spelling
import Rehearsal.Proofs.StepGrammar
import Rehearsal.Proofs.WholeRun

/-! # Scripts for pictures

The bytes, the name and the kind of a picture are put into its script one after another, and each time
the whole text is looked through, with what was put in before. The name alone can hold a mark that is
still to come, the one of the kind. Where it does, the script is another one than if all three were put
in at once.
-/
namespace Rehearsal

namespace Text

/-- Puts for each pair of a table its second part in the place of its first, all at once: what is put in
is not looked at. The first `skip` characters belong to an occurrence already replaced. -/
def replaceAllFrom (table : List (List Char × List Char)) : Nat → List Char → List Char
  | _, [] => []
  | skip + 1, _ :: cs => replaceAllFrom table skip cs
  | 0, c :: cs =>
    match table.find? fun entry => entry.1.isPrefixOf (c :: cs) with
    | some entry => entry.2 ++ replaceAllFrom table (entry.1.length - 1) cs
    | none => c :: replaceAllFrom table 0 cs

def replaceAll (whole : String) (table : List (String × String)) : String :=
  String.ofList (replaceAllFrom (table.map fun entry => (entry.1.toList, entry.2.toList)) 0 whole.toList)

section

variable {table : List (List Char × List Char)}

theorem replaceAllFrom_skip (skip : Nat) (cs : List Char) :
    replaceAllFrom table skip cs = replaceAllFrom table 0 (cs.drop skip) := by
  induction cs generalizing skip with
  | nil => cases skip <;> simp [replaceAllFrom]
  | cons c cs ih =>
    cases skip with
    | zero => rfl
    | succ skip => exact ih skip

/-- Where no first part begins, nothing is replaced. -/
theorem replaceAllFrom_stretch {stretch : List Char}
    (free : ∀ entry ∈ table, ∃ c mark, entry.1 = c :: mark ∧ c ∉ stretch) (rest : List Char) :
    replaceAllFrom table 0 (stretch ++ rest) = stretch ++ replaceAllFrom table 0 rest := by
  induction stretch with
  | nil => rfl
  | cons c stretch ih =>
    have none_here : table.find? (fun entry => entry.1.isPrefixOf (c :: (stretch ++ rest))) = none := by
      rw [List.find?_eq_none]
      intro entry hentry
      obtain ⟨d, mark, hmark, hd⟩ := free entry hentry
      have hne : d ≠ c := fun h => hd (h ▸ List.mem_cons_self)
      simp [hmark, List.isPrefixOf, hne]
    have later : ∀ entry ∈ table, ∃ c mark, entry.1 = c :: mark ∧ c ∉ stretch := by
      intro entry hentry
      obtain ⟨d, mark, hmark, hd⟩ := free entry hentry
      exact ⟨d, mark, hmark, fun h => hd (List.mem_cons_of_mem c h)⟩
    rw [List.cons_append, replaceAllFrom, none_here, ih later]
    rfl

theorem replaceAllFrom_mark {mark new : List Char} (hne : mark ≠ []) {rest : List Char}
    (found : table.find? (fun entry => entry.1.isPrefixOf (mark ++ rest)) = some (mark, new)) :
    replaceAllFrom table 0 (mark ++ rest) = new ++ replaceAllFrom table 0 rest := by
  obtain ⟨c, mark, rfl⟩ := List.exists_cons_of_ne_nil hne
  rw [List.cons_append] at found ⊢
  rw [replaceAllFrom, found]
  simp only [List.length_cons, Nat.add_sub_cancel]
  rw [replaceAllFrom_skip, List.drop_left]

end

section

variable {part new : List Char}

/-- With a table of one pair, this is the replacing of one text. -/
theorem replaceFrom_eq (skip : Nat) (cs : List Char) :
    replaceFrom part new skip cs = replaceAllFrom [(part, new)] skip cs := by
  induction cs generalizing skip with
  | nil => cases skip <;> rfl
  | cons c cs ih =>
    cases skip with
    | succ skip => exact ih skip
    | zero =>
      cases hpart : part.isPrefixOf (c :: cs) with
      | true => simp [replaceFrom, replaceAllFrom, hpart, ih]
      | false => simp [replaceFrom, replaceAllFrom, hpart, ih]

theorem replaceFrom_stretch {p : Char} {ps stretch : List Char} (h : p ∉ stretch) (rest : List Char) :
    replaceFrom (p :: ps) new 0 (stretch ++ rest) = stretch ++ replaceFrom (p :: ps) new 0 rest := by
  rw [replaceFrom_eq, replaceFrom_eq, replaceAllFrom_stretch (by simpa using h)]

/-- The first occurrence is replaced, when it begins with a character that does not stand before it. -/
theorem replaceFrom_first {p : Char} {ps before : List Char} (h : p ∉ before) (rest : List Char) :
    replaceFrom (p :: ps) new 0 (before ++ (p :: ps ++ rest)) =
      before ++ (new ++ replaceFrom (p :: ps) new 0 rest) := by
  have found : [(p :: ps, new)].find? (fun entry => entry.1.isPrefixOf (p :: ps ++ rest)) =
      some (p :: ps, new) :=
    List.find?_cons_of_pos (List.isPrefixOf_iff_prefix.mpr (List.prefix_append ..))
  rw [replaceFrom_stretch h, replaceFrom_eq, replaceFrom_eq,
    replaceAllFrom_mark (List.cons_ne_nil p ps) found]

theorem isPrefixOf_append_of_not_mem {x : Char} (h : x ∉ part) (xs rest : List Char) :
    part.isPrefixOf (xs ++ x :: rest) = part.isPrefixOf xs := by
  rw [Bool.eq_iff_iff, List.isPrefixOf_iff_prefix, List.isPrefixOf_iff_prefix]
  constructor
  · intro hpart
    have hxs := List.prefix_or_prefix_of_prefix hpart (List.prefix_append xs (x :: rest))
    rcases hxs with hxs | ⟨more, rfl⟩
    · exact hxs
    · cases more with
      | nil => simp
      | cons y more =>
        obtain ⟨rfl, -⟩ := List.cons_prefix_cons.mp ((List.prefix_append_right_inj xs).mp hpart)
        simp at h
  · exact fun hxs => hxs.trans (List.prefix_append ..)

/-- No occurrence reaches across a character that it has not. -/
theorem replaceFrom_append {x : Char} (h : x ∉ part) (rest : List Char) {skip : Nat} {xs : List Char}
    (hskip : skip ≤ xs.length) :
    replaceFrom part new skip (xs ++ x :: rest) =
      replaceFrom part new skip xs ++ replaceFrom part new 0 (x :: rest) := by
  induction xs generalizing skip with
  | nil =>
    obtain rfl : skip = 0 := by simpa using hskip
    rfl
  | cons c xs ih =>
    cases skip with
    | succ skip => exact ih (by simpa using hskip)
    | zero =>
      rw [List.cons_append, replaceFrom, replaceFrom, ← List.cons_append, isPrefixOf_append_of_not_mem h]
      split
      · rename_i hpart
        have hle := (List.isPrefixOf_iff_prefix.mp hpart).length_le
        rw [ih (by simp only [List.length_cons] at hle; omega), List.append_assoc]
      · rw [ih (Nat.zero_le _)]
        rfl

/-- A text is as it was exactly if nothing in it was to be replaced. -/
theorem replaceFrom_eq_self_iff {p n : Char} (hne : n ≠ p) (ps ns cs : List Char) :
    replaceFrom (p :: ps) (n :: ns) 0 cs = cs ↔ occurs (p :: ps) cs = false := by
  induction cs with
  | nil => simp [replaceFrom, occurs]
  | cons c cs ih =>
    rw [replaceFrom, occurs]
    cases hpart : (p :: ps).isPrefixOf (c :: cs) with
    | false => simp [ih]
    | true =>
      obtain ⟨rfl, -⟩ := List.cons_prefix_cons.mp (List.isPrefixOf_iff_prefix.mp hpart)
      simp [hne]

theorem occurs_append_of_not_mem {p : Char} {ps xs : List Char} (h : p ∉ xs) (rest : List Char) :
    occurs (p :: ps) (xs ++ rest) = occurs (p :: ps) rest := by
  induction xs with
  | nil => rfl
  | cons x xs ih =>
    obtain ⟨hx, hxs⟩ := not_or.mp (mt List.mem_cons.mpr h)
    simp [occurs, List.isPrefixOf, hx, ih hxs]

end

/-! ## Marks in quoted text -/

namespace Quoted

/-- In quoted text this character stands for itself, and nothing else is written with it. -/
structure StandsAlone (c : Char) : Prop where
  itself : escape c = [c]
  only : ∀ d, c ∈ escape d → d = c

theorem StandsAlone.of {c : Char} (itself : escape c = [c])
    (letter : c ∉ ['\\', 'u', '0'] ∧ Json.Tree.simpleEscape? c = none)
    (digit : c ∉ (List.range 16).map hexDigit) : StandsAlone c := by
  have hdigit : ∀ n, hexDigit n ≠ c := by
    rintro n rfl
    have hsame : hexDigit (n % 16) = hexDigit n := by simp only [hexDigit, Nat.mod_mod]
    exact digit (List.mem_map.mpr ⟨n % 16, List.mem_range.mpr (Nat.mod_lt n (by decide)), hsame⟩)
  refine ⟨itself, fun d hmem => ?_⟩
  simp only [List.mem_cons, List.not_mem_nil, or_false, not_or] at letter
  obtain ⟨⟨hslash, hu, hzero⟩, hnone⟩ := letter
  rcases Json.Tree.escape_cases d with ⟨l, hescape, -, hl⟩ | ⟨-, hescape⟩ | ⟨-, -, -, hescape⟩
  · rw [hescape] at hmem
    obtain rfl : c = l := by simpa [hslash] using hmem
    rw [hnone] at hl
    cases hl
  · rw [hescape] at hmem
    simp [hslash, hu, hzero, (hdigit _).symm] at hmem
  · rw [hescape] at hmem
    exact (List.mem_singleton.mp hmem).symm

variable {part : List Char}

theorem isPrefixOf_quoted (alone : ∀ c ∈ part, StandsAlone c) (hquote : '"' ∉ part) (s : List Char) :
    part.isPrefixOf (s.flatMap escape ++ ['"']) = part.isPrefixOf s := by
  rw [isPrefixOf_append_of_not_mem hquote]
  induction s generalizing part with
  | nil => rfl
  | cons d s ih =>
    cases part with
    | nil => rfl
    | cons p ps =>
      have rest := ih (fun c hc => alone c (List.mem_cons_of_mem p hc))
        (fun h => hquote (List.mem_cons_of_mem p h))
      have hp := alone p List.mem_cons_self
      by_cases hd : p = d
      · subst hd
        simp [hp.itself, List.isPrefixOf, rest]
      · have hnone : p ∉ escape d := fun h => hd (hp.only d h).symm
        obtain ⟨e, es, hescape⟩ : ∃ e es, escape d = e :: es := by
          rcases Json.Tree.escape_cases d with ⟨l, h, -⟩ | ⟨-, h⟩ | ⟨-, -, -, h⟩
          · exact ⟨_, _, h⟩
          · exact ⟨_, _, h⟩
          · exact ⟨_, _, h⟩
        rw [hescape, List.mem_cons, not_or] at hnone
        have hpe : (p == e) = false := by simpa using hnone.1
        have hpd : (p == d) = false := by simpa using hd
        rw [List.flatMap_cons, hescape, List.cons_append, List.isPrefixOf, List.isPrefixOf, hpe, hpd,
          Bool.false_and, Bool.false_and]

/-- Such characters in a row are found in the quoted text exactly if they are in the text. -/
theorem occurs_quote (hne : part ≠ []) (alone : ∀ c ∈ part, StandsAlone c) (hquote : '"' ∉ part)
    (s : String) : occurs part (quote s).toList = contains s (String.ofList part) := by
  obtain ⟨p, ps, rfl⟩ := List.exists_cons_of_ne_nil hne
  have hp := alone p List.mem_cons_self
  have hopen : p ≠ '"' := fun h => hquote (h ▸ List.mem_cons_self)
  have inside : ∀ cs : List Char,
      occurs (p :: ps) (cs.flatMap escape ++ ['"']) = occurs (p :: ps) cs := by
    intro cs
    induction cs with
    | nil => simp [occurs, List.isPrefixOf, hopen]
    | cons d cs ih =>
      have here := isPrefixOf_quoted alone hquote (d :: cs)
      rw [List.flatMap_cons] at here
      by_cases hd : p = d
      · subst hd
        rw [hp.itself, List.singleton_append] at here
        rw [List.flatMap_cons, hp.itself, List.singleton_append, List.cons_append, occurs, occurs, ih,
          ← List.cons_append, here]
      · have hnone : p ∉ escape d := fun h => hd (hp.only d h).symm
        rw [List.flatMap_cons, List.append_assoc, occurs_append_of_not_mem hnone, ih]
        simp [occurs, List.isPrefixOf, hd]
  simp [quote, contains, occurs, List.isPrefixOf, hopen, inside]

theorem not_mem_quote {c : Char} (alone : StandsAlone c) (hquote : c ≠ '"') {s : String}
    (h : c ∉ s.toList) : c ∉ (quote s).toList := by
  simp only [quote, String.toList_ofList, List.mem_cons, List.mem_append, List.mem_flatMap,
    List.not_mem_nil, or_false, hquote, false_or]
  rintro ⟨d, hd, hmem⟩
  rw [alone.only d hmem] at hd
  exact h hd

end Quoted

namespace Base64

/-- The six bits that a letter stands for. -/
def value? (c : Char) : Option Nat := (List.range 64).find? fun n => letter n == c

/-- Four letters as three bytes, fewer where the last group is filled up. -/
def decode? : List Char → Option (List UInt8)
  | [] => some []
  | a :: b :: c :: d :: rest => do
    let high := (← value? a) * 64 + (← value? b)
    if c = '=' ∧ d = '=' ∧ rest = [] then return [.ofNat (high / 16)]
    let n := high * 64 + (← value? c)
    if d = '=' ∧ rest = [] then return [.ofNat (n / 1024), .ofNat (n / 4)]
    let n := n * 64 + (← value? d)
    return .ofNat (n / 65536) :: .ofNat (n / 256) :: .ofNat n :: (← decode? rest)
  | _ => none

theorem letter_mod (n : Nat) : letter (n % 64) = letter n := by simp only [letter, Nat.mod_mod]

theorem value?_letter (n : Nat) : value? (letter n) = some (n % 64) := by
  have small : ∀ m < 64, value? (letter m) = some m := by decide +kernel
  rw [← letter_mod, small _ (Nat.mod_lt n (by decide))]

theorem letter_ne {c : Char} (h : ∀ m < 64, letter m ≠ c) (n : Nat) : letter n ≠ c := by
  rw [← letter_mod]
  exact h _ (Nat.mod_lt n (by decide))

theorem ofNat_eq {n : Nat} {a : UInt8} (h : n % 256 = a.toNat) : UInt8.ofNat n = a := by
  rw [← UInt8.toNat_inj, UInt8.toNat_ofNat', h]

/-- Every text of bytes is told by its letters. -/
theorem decode?_encode (bytes : List UInt8) : decode? (encode bytes) = some bytes := by
  have hfill : ∀ n, letter n ≠ '=' := letter_ne (by decide)
  induction bytes using encode.induct with
  | case1 => rfl
  | case2 a =>
    have ha := a.toNat_lt
    have hall : (a.toNat * 16 / 64 % 64 * 64 + a.toNat * 16 % 64) / 16 = a.toNat := by omega
    simp [encode, decode?, value?_letter, hall]
  | case3 a b =>
    have ha := a.toNat_lt
    have hb := b.toNat_lt
    generalize hn : (a.toNat * 256 + b.toNat) * 4 = n
    have hall : (n / 4096 % 64 * 64 + n / 64 % 64) * 64 + n % 64 = n := by omega
    simp only [encode, decode?, value?_letter, hfill, hn, hall, Option.bind_eq_bind, Option.bind_some,
      if_false, and_self, if_true, Option.some.injEq, List.cons.injEq, and_true, pure]
    exact ⟨ofNat_eq (by omega), ofNat_eq (by omega)⟩
  | case4 a b c rest ih =>
    have ha := a.toNat_lt
    have hb := b.toNat_lt
    have hc := c.toNat_lt
    generalize hn : (a.toNat * 256 + b.toNat) * 256 + c.toNat = n
    have hall : ((n / 262144 % 64 * 64 + n / 4096 % 64) * 64 + n / 64 % 64) * 64 + n % 64 = n := by omega
    simp only [encode, decode?, value?_letter, hfill, hn, hall, ih, Option.bind_eq_bind, Option.bind_some,
      false_and, if_false, Option.some.injEq, List.cons.injEq, and_true, pure]
    exact ⟨ofNat_eq (by omega), ofNat_eq (by omega), ofNat_eq (by omega)⟩
theorem underscore_not_mem_encode (bytes : List UInt8) : '_' ∉ encode bytes := by
  have hletter : ∀ n, letter n ≠ '_' := letter_ne (by decide)
  induction bytes using encode.induct with
  | case1 => simp [encode]
  | case2 a => simp [encode, (hletter _).symm]
  | case3 a b => simp [encode, (hletter _).symm]
  | case4 a b c rest ih => simp [encode, (hletter _).symm, ih]

end Base64

end Text

open Text.Quoted (quote)

namespace Paste

open Disk (Path Bytes)

/-! ## The script of a picture -/

/-- What stands around the marks of a template. -/
structure Frame where
  opening : List Char
  beforeName : List Char
  beforeMime : List Char
  closing : List Char

def Frame.around (f : Frame) (data name mime : String) : String :=
  String.ofList (f.opening ++ (data.toList ++ (f.beforeName ++ (name.toList ++ (f.beforeMime ++
    (mime.toList ++ f.closing))))))

def frame : Frame where
  opening := "\x7b
    const bytes = Uint8Array.from(atob(".toList
  beforeName := "), c => c.charCodeAt(0));
    const file = new File([bytes], ".toList
  beforeMime := ", \x7b type: ".toList
  closing := " \x7d);
    const transfer = new DataTransfer();
    transfer.items.add(file);
    const target = document.activeElement || document.body;
    target.dispatchEvent(new ClipboardEvent(\"paste\", \x7b
        clipboardData: transfer,
        bubbles: true,
        cancelable: true,
    \x7d));
    true;
\x7d".toList

/-- Around the marks is what the template is without them, and nothing in it begins like a mark. After
each mark there are only those of the texts that follow. -/
structure Frame.Fits (f : Frame) : Prop where
  marks : f.around dataMark nameMark mimeMark = template
  opening : '_' ∉ f.opening
  beforeName : '_' ∉ f.beforeName
  beforeMime : '_' ∉ f.beforeMime
  closing : '_' ∉ f.closing
  comma : f.beforeMime = ',' :: f.beforeMime.tail
  data : Text.occurs dataMark.toList (f.beforeName ++ (nameMark.toList ++ (f.beforeMime ++
    (mimeMark.toList ++ f.closing)))) = false
  name : Text.occurs nameMark.toList (f.beforeMime ++ (mimeMark.toList ++ f.closing)) = false
  mime : Text.occurs mimeMark.toList f.closing = false

set_option maxRecDepth 4000 in
theorem fits_frame : frame.Fits := by
  obtain ⟨o, n, m, c, hframe, hfits⟩ : ∃ o n m c, frame = ⟨o, n, m, c⟩ ∧ Frame.Fits ⟨o, n, m, c⟩ := by
    -- The characters of a literal are taken as they are spelled, and not from its bytes.
    have spelled : ∀ cs, (String.ofList cs).toList = cs := fun _ => String.toList_ofList
    refine ⟨_, _, _, _, congr (congr (congr (congrArg Frame.mk (spelled _)) (spelled _)) (spelled _))
      (spelled _), ?_⟩
    constructor
    case marks => rfl
    case comma => rfl
    all_goals decide +kernel
  exact hframe ▸ hfits

theorem around_name_inj {data name name' mime : String}
    (h : frame.around data name mime = frame.around data name' mime) : name = name' := by
  have hchars := String.ofList_injective h
  simp only [List.append_cancel_left_eq, List.append_cancel_right_eq] at hchars
  exact String.toList_injective hchars

theorem standsAlone_mark {c : Char} (hc : c ∈ mimeMark.toList) : Text.Quoted.StandsAlone c := by
  have among : mimeMark.toList ⊆ ['_', 'M', 'I', 'E'] := by decide +kernel
  have hc := among hc
  simp only [List.mem_cons, List.not_mem_nil, or_false] at hc
  rcases hc with rfl | rfl | rfl | rfl <;> exact .of (by decide) (by decide) (by decide)

/-- The script with its three texts put in at once. -/
def scriptAtOnce (path : Path) (content : Bytes) : String :=
  Text.replaceAll template [(dataMark, quote (String.ofList (Text.Base64.encode content))),
    (nameMark, quote (fileName path)), (mimeMark, quote (mime path))]

theorem toList_dataMark : dataMark.toList = '_' :: "_DATA__".toList := by decide

theorem toList_nameMark : nameMark.toList = '_' :: "_NAME__".toList := by decide

theorem toList_mimeMark : mimeMark.toList = '_' :: "_MIME__".toList := by decide

theorem toList_quote (s : String) :
    (quote s).toList = '"' :: (s.toList.flatMap Text.Quoted.escape ++ ['"']) := by
  simp [quote]

theorem underscore_not_mem_data (content : Bytes) :
    '_' ∉ (quote (String.ofList (Text.Base64.encode content))).toList :=
  Text.Quoted.not_mem_quote (standsAlone_mark (by decide)) (by decide)
    (by simpa using Text.Base64.underscore_not_mem_encode content)

/-- A mark after text that has no part of one is replaced, and no other mark is. -/
theorem replaceFrom_mark {before rest : List Char} {mark : String} {tail : List Char}
    (hmark : mark.toList = '_' :: tail) (hbefore : '_' ∉ before)
    (hrest : Text.occurs mark.toList rest = false) (s : String) :
    Text.replaceFrom mark.toList (quote s).toList 0 (before ++ (mark.toList ++ rest)) =
      before ++ ((quote s).toList ++ rest) := by
  rw [hmark] at hrest ⊢
  rw [Text.replaceFrom_first hbefore, toList_quote, (Text.replaceFrom_eq_self_iff (by decide) ..).mpr hrest]

theorem replace_dataMark (data : String) :
    Text.replace template dataMark (quote data) = frame.around (quote data) nameMark mimeMark := by
  rw [← fits_frame.marks]
  simp only [Text.replace, Frame.around, String.toList_ofList]
  rw [replaceFrom_mark toList_dataMark fits_frame.opening fits_frame.data]

section

variable {data : String} (hdata : '_' ∉ data.toList)

include hdata

theorem replace_nameMark (name : String) :
    Text.replace (frame.around data nameMark mimeMark) nameMark (quote name) =
      frame.around data (quote name) mimeMark := by
  have begun : '_' ∉ frame.opening ++ (data.toList ++ frame.beforeName) := by
    simp [fits_frame.opening, hdata, fits_frame.beforeName]
  have h := replaceFrom_mark toList_nameMark begun fits_frame.name name
  simp only [List.append_assoc] at h
  simp only [Text.replace, Frame.around, String.toList_ofList]
  rw [h]

/-- The name is looked through once more. -/
theorem replace_mimeMark (name mime : String) :
    Text.replace (frame.around data name mimeMark) mimeMark (quote mime) =
      frame.around data (Text.replace name mimeMark (quote mime)) (quote mime) := by
  have begun : '_' ∉ frame.opening ++ (data.toList ++ frame.beforeName) := by
    simp [fits_frame.opening, hdata, fits_frame.beforeName]
  have across : ∀ rest, Text.replaceFrom mimeMark.toList (quote mime).toList 0
      (name.toList ++ (frame.beforeMime ++ rest)) =
      Text.replaceFrom mimeMark.toList (quote mime).toList 0 name.toList ++
        Text.replaceFrom mimeMark.toList (quote mime).toList 0 (frame.beforeMime ++ rest) := by
    intro rest
    rw [fits_frame.comma, List.cons_append,
      Text.replaceFrom_append (by decide : ',' ∉ mimeMark.toList) _ (Nat.zero_le _)]
  have h : ∀ rest, Text.replaceFrom mimeMark.toList (quote mime).toList 0
      (frame.opening ++ (data.toList ++ (frame.beforeName ++ rest))) =
      frame.opening ++ (data.toList ++ (frame.beforeName ++
        Text.replaceFrom mimeMark.toList (quote mime).toList 0 rest)) := by
    intro rest
    rw [toList_mimeMark]
    simpa using Text.replaceFrom_stretch begun rest
  simp only [Text.replace, Frame.around, String.toList_ofList]
  rw [h, across, replaceFrom_mark toList_mimeMark fits_frame.beforeMime fits_frame.mime]

end

/-- What the script is in any case: the name may have been changed. -/
theorem script_eq (path : Path) (content : Bytes) :
    script path content = frame.around (quote (String.ofList (Text.Base64.encode content)))
      (Text.replace (quote (fileName path)) mimeMark (quote (mime path))) (quote (mime path)) := by
  have hdata := underscore_not_mem_data content
  rw [script, replace_dataMark, replace_nameMark hdata, replace_mimeMark hdata]

/-- Put in at once, the texts stand where the marks stood. -/
theorem replaceAll_template (data name mime : String) :
    Text.replaceAll template [(dataMark, data), (nameMark, name), (mimeMark, mime)] =
      frame.around data name mime := by
  obtain ⟨table, htable⟩ : ∃ table, [(dataMark.toList, data.toList), (nameMark.toList, name.toList),
    (mimeMark.toList, mime.toList)] = table := ⟨_, rfl⟩
  have stretch : ∀ {part}, '_' ∉ part → ∀ rest,
      Text.replaceAllFrom table 0 (part ++ rest) = part ++ Text.replaceAllFrom table 0 rest := by
    intro part h
    refine Text.replaceAllFrom_stretch ?_
    simpa [← htable, toList_dataMark, toList_nameMark, toList_mimeMark] using h
  have mark : ∀ entry ∈ table, ∀ rest, Text.replaceAllFrom table 0 (entry.1 ++ rest) =
      entry.2 ++ Text.replaceAllFrom table 0 rest := by
    intro entry hentry rest
    simp only [← htable, List.mem_cons, List.not_mem_nil, or_false] at hentry
    refine Text.replaceAllFrom_mark ?_ ?_
    · rcases hentry with rfl | rfl | rfl <;>
        simp [toList_dataMark, toList_nameMark, toList_mimeMark]
    · rcases hentry with rfl | rfl | rfl <;>
        simp [← htable, toList_dataMark, toList_nameMark, toList_mimeMark, List.find?, List.isPrefixOf]
  simp only [← htable, List.forall_mem_cons] at mark
  rw [htable] at mark
  obtain ⟨hdata, hnamed, hmimed, -⟩ := mark
  have hend := stretch fits_frame.closing []
  rw [List.append_nil] at hend
  rw [← fits_frame.marks]
  simp only [Text.replaceAll, List.map_cons, List.map_nil, htable, Frame.around, String.toList_ofList]
  rw [stretch fits_frame.opening, hdata, stretch fits_frame.beforeName, hnamed,
    stretch fits_frame.beforeMime, hmimed, hend]
  rw [Text.replaceAllFrom, List.append_nil]

theorem scriptAtOnce_eq (path : Path) (content : Bytes) :
    scriptAtOnce path content = frame.around (quote (String.ofList (Text.Base64.encode content)))
      (quote (fileName path)) (quote (mime path)) :=
  replaceAll_template _ _ _

/-- The script is the one that it should be if and only if the name has not the mark of the kind. -/
theorem script_eq_scriptAtOnce_iff (path : Path) (content : Bytes) :
    script path content = scriptAtOnce path content ↔ Text.contains (fileName path) mimeMark = false := by
  have hoccurs := Text.Quoted.occurs_quote (by decide) (fun _ => standsAlone_mark) (by decide)
    (fileName path)
  rw [String.ofList_toList] at hoccurs
  rw [script_eq, scriptAtOnce_eq, ← hoccurs, toList_mimeMark,
    ← Text.replaceFrom_eq_self_iff (by decide : '"' ≠ '_') _
      ((mime path).toList.flatMap Text.Quoted.escape ++ ['"']), ← toList_quote]
  constructor
  · intro h
    have hname := congrArg String.toList (around_name_inj h)
    rwa [Text.replace, String.toList_ofList, toList_mimeMark] at hname
  · intro h
    rw [Text.replace, toList_mimeMark, h, String.ofList_toList]

end Paste

/-! ## What the browser is given -/

def Asking.script? : Asking → Option String
  | evaluate script => some script
  | _ => none

variable {σ : Type} {stage : Stage σ} {asked : σ → List (Nat × Asking)}

/-- The browser has been given these scripts, in this order. -/
def Given (asked : σ → List (Nat × Asking)) (scripts : List String) (st : World σ × Trace) : Prop :=
  (asked st.1.page).filterMap (·.2.script?) = scripts

/-- The same browser, to which no script is given. -/
def Browser.scriptless (b : Browser σ) : Browser σ := { b with evaluate := fun _ => .done (.ok .null) }

/-- The same stage with a browser to which no script is given. -/
def Stage.scriptless (stage : Stage σ) : Stage σ := { stage with browser := stage.browser.scriptless }

namespace Locate

variable {b : Browser σ}

theorem round_scriptless (wanted : Wanted) (missed : Missed) (candidates : List String) :
    round b.scriptless wanted missed candidates = round b wanted missed candidates := by
  induction candidates generalizing missed with
  | nil => rfl
  | cons selector rest ih =>
    have hattempt : attempt b.scriptless wanted selector = attempt b wanted selector := rfl
    simp only [round, hattempt, ih]

theorem rounds_scriptless (wanted : Wanted) (candidates : List String) (deadline fuel : Nat)
    (other : Option (String × String)) :
    rounds b.scriptless wanted candidates deadline fuel other =
      rounds b wanted candidates deadline fuel other := by
  induction fuel generalizing other with
  | zero => rfl
  | succ fuel ih => simp only [rounds, round_scriptless, ih]

end Locate

/-- Looking for an element gives the browser no script. -/
theorem locate_scriptless {b : Browser σ} (candidates : List String) (wanted : Wanted) (timeout : Nat) :
    locate b.scriptless candidates wanted timeout = locate b candidates wanted timeout := by
  simp only [locate, Locate.rounds_scriptless]

section

variable (records : stage.browser.Records asked) {scripts : List String}

include records

theorem given_served {α : Type} {asking : Asking} {call : Call σ α}
    (serves : stage.browser.Serves asking call) {w : Watch} {c : Clock} {s : World σ} {t : Trace}
    (hs : Given asked scripts (s, t)) :
    Given asked (scripts ++ asking.script?.toList) ((call.run w c s).2.2, t) := by
  have hpage := records.served serves w c s
  show List.filterMap _ (asked (call.run w c s).2.2.page) = _
  rw [hpage, List.filterMap_append, ← hs]
  cases hscript : asking.script? <;> simp [hscript]

theorem keeps_given (t : Trace) : stage.browser.scriptless.Keeps fun s => Given asked scripts (s, t) := by
  have hserved : ∀ {α : Type} {asking : Asking} {call : Call σ α}, stage.browser.Serves asking call →
      asking.script? = none →
      Timed.Maintains (fun s => Given asked scripts (s, t)) Timed.Whatever call.run := by
    intro α asking call serves hnone w c s hs
    have hgiven := given_served records serves (w := w) (c := c) hs
    rw [hnone, Option.toList_none, List.append_nil] at hgiven
    have hend := maintains_call (I := fun _ => True) ⟨fun _ _ => trivial, fun _ _ => trivial⟩ call w c s
      trivial
    generalize call.run w c s = r at hend hgiven ⊢
    rcases r with ⟨a | _ | _, c', s'⟩
    · exact ⟨hend.1, hgiven, trivial⟩
    · exact ⟨hend.1, hgiven, hend.2.2⟩
    · exact ⟨hend.1, hgiven, hend.2.2⟩
  intro α call offered
  cases offered with
  | goto url => exact hserved (.goto url) rfl
  | currentUrl => exact hserved .currentUrl rfl
  | probe selector => exact hserved (.probe selector) rfl
  | perform selector operation => exact hserved (.perform selector operation) rfl
  | evaluate script => exact .pure trivial
  | screenshot full => exact hserved (.screenshot full) rfl
  | snapshot => exact hserved .snapshot rfl
  | restore session => exact hserved (.restore session) rfl

theorem endures_given (place : Place) :
    stage.scriptless.Endures place (Given asked scripts) := by
  intro x y h hx
  cases h with
  | call offered ran => exact (keeps_given records _ offered).holds hx ran
  | say lines => exact hx
  | picture name png => exact hx
  | session key session => exact hx
  | note line =>
    unfold Given at hx ⊢
    rw [Stage.page_heard]
    exact hx
  | selector selector => exact hx

theorem Work.brings_askScript {w : Watch} (script : String) :
    Timed.Brings w (Given asked scripts) (fun _ => Given asked (scripts ++ [script]))
      (Given asked (scripts ++ [script])) (Work.askScript (stage.browser.evaluate script)).run := by
  rintro c ⟨s, t⟩ hs
  have hgiven := given_served records (.evaluate script) (w := w) (c := c) hs
  show Timed.Left _ _ (Timed.onFirst _ w c (s, t))
  unfold Timed.onFirst
  rw [Timed.bind_apply]
  generalize (stage.browser.evaluate script).run w c s = r at hgiven ⊢
  rcases r with ⟨⟨fault | value⟩ | _ | _, c', s'⟩
  · exact hgiven
  · exact hgiven
  · exact hgiven
  · exact hgiven

namespace Perform

/-- What is done with a script in an element gives the browser this script, unless the element is not
found. -/
theorem brings_script {w : Watch} {place : Place} {candidates : List String} {wanted : Wanted}
    {timeout : Nat} {script : String} {line : Located → String} :
    Timed.Brings w (Given asked scripts)
      (fun r st => (r ≠ .ok () ∧ Given asked scripts st) ∨ Given asked (scripts ++ [script]) st)
      (fun st => Given asked scripts st ∨ Given asked (scripts ++ [script]) st)
      (do
        let located ← find stage candidates wanted timeout
        let _ ← Work.askScript (stage.browser.evaluate script)
        Work.note stage place (line located)
        Work.setSelector located.selector : Work σ Unit).run := by
  have endures : ∀ scripts, stage.scriptless.Endures place (Given asked scripts) :=
    fun _ => endures_given records place
  have hfind : find stage candidates wanted timeout = find stage.scriptless candidates wanted timeout :=
    congrArg Work.ofWorld (locate_scriptless candidates wanted timeout).symm
  have looked := maintains_find (endures scripts) (Stage.tolerates_true _) candidates wanted timeout
  rw [hfind]
  refine .bind (R := fun _ => Given asked scripts) (.mono (.of_maintains looked) (fun _ h => h)
    (fun _ _ h => h.1) fun _ h => .inl h) fun r => ?_
  cases r with
  | error e => exact .pure fun _ h => .inl ⟨nofun, h⟩
  | ok located =>
    have noted := maintains_found (P := fun _ => True) (endures (scripts ++ [script])) (line located)
      located
    refine .bind (R := fun _ => Given asked (scripts ++ [script])) (.mono
      (Work.brings_askScript records script) (fun _ h => h) (fun _ _ h => h) fun _ h => .inr h) fun r => ?_
    cases r with
    | error e => exact .pure fun _ h => .inr h
    | ok value =>
      exact .mono (.of_maintains noted) (fun _ h => h) (fun _ _ h => .inr h.1) fun _ h => .inr h

/-- Pasting a picture gives the browser its script, unless it comes to an end before. -/
theorem brings_paste {w : Watch} {place : Place} {candidates : List String} {path : Disk.Path}
    {content : Disk.Bytes} {timeout : Nat} :
    Timed.Brings w
      (fun st => Given asked scripts st ∧ st.1.desk.disk.readBytes path = .ok content)
      (fun r st => (r ≠ .ok () ∧ Given asked scripts st) ∨
        Given asked (scripts ++ [Paste.script path content]) st)
      (fun st => Given asked scripts st ∨ Given asked (scripts ++ [Paste.script path content]) st)
      (paste stage place candidates path timeout).run := by
  refine .bind (R := fun r st => r = .ok content ∧ Given asked scripts st) ?_ fun r => ?_
  · rintro c ⟨s, t⟩ ⟨hgiven, readable⟩
    have hread : Timed.Left
        (fun (r : Except Failure Disk.Bytes) st => r = .ok content ∧ Given asked scripts st)
        (fun st => Given asked scripts st ∨ Given asked (scripts ++ [Paste.script path content]) st)
        (.done (.ok content), c, (s, t)) := ⟨rfl, hgiven⟩
    show Timed.Left _ _ (Timed.onFirst _ w c (s, t))
    simpa [Timed.onFirst, Timed.bind_apply, readable] using hread
  · rintro c st ⟨rfl, hgiven⟩
    exact brings_script records c st hgiven

/-- Where a picture is pasted, the browser is given its script and no other. The script is the template
with the three texts put in at once, each of which is read as it was written and the first as the bytes,
if and only if the name has not the mark of the kind; otherwise this mark is replaced in the name, too. -/
theorem paste_embeds {w : Watch} {c c' : Clock} {s : World σ} {t : Trace} {st' : World σ × Trace}
    {e : Exit (Except Failure Unit)} {place : Place} {candidates : List String} {path : Disk.Path}
    {content : Disk.Bytes} {timeout : Nat} (before : Given asked scripts (s, t))
    (readable : s.desk.disk.readBytes path = .ok content)
    (ran : (paste stage place candidates path timeout).run w c (s, t) = (e, c', st')) :
    ((e ≠ .done (.ok ()) ∧ Given asked scripts st') ∨
      Given asked (scripts ++ [Paste.script path content]) st') ∧
    (Paste.script path content = Paste.scriptAtOnce path content ↔
      Text.contains (Paste.fileName path) Paste.mimeMark = false) ∧
    (Paste.template = Paste.frame.around Paste.dataMark Paste.nameMark Paste.mimeMark ∧
      Paste.scriptAtOnce path content =
        Paste.frame.around (quote (String.ofList (Text.Base64.encode content)))
          (quote (Paste.fileName path)) (quote (Paste.mime path)) ∧
      (∀ text, Json.Tree.read (quote text) = .ok (.string (some text))) ∧
      Text.Base64.decode? (Text.Base64.encode content) = some content) ∧
    Paste.script path content =
      Paste.frame.around (quote (String.ofList (Text.Base64.encode content)))
        (Text.replace (quote (Paste.fileName path)) Paste.mimeMark (quote (Paste.mime path)))
        (quote (Paste.mime path)) := by
  refine ⟨?_, Paste.script_eq_scriptAtOnce_iff path content, ⟨Paste.fits_frame.marks.symm,
    Paste.scriptAtOnce_eq path content, fun text => Json.Tree.read_of_spells (.string text),
    Text.Base64.decode?_encode content⟩, Paste.script_eq path content⟩
  have hleft := (brings_paste records).left ⟨before, readable⟩ ran
  cases e with
  | done r =>
    rcases hleft with ⟨hr, hgiven⟩ | hgiven
    · exact .inl ⟨fun h => hr (Exit.done.inj h), hgiven⟩
    · exact .inr hgiven
  | cancelled => exact hleft.imp (fun h => ⟨nofun, h⟩) id
  | expired => exact hleft.imp (fun h => ⟨nofun, h⟩) id

end Perform

end

/-- A browser that shows whatever it is asked for. -/
def Browser.obliging : Browser Unit :=
  { Browser.still with probe := fun _ => .done (.ok .visible), perform := fun _ _ => .done (.ok none) }

def Stage.obliging : Stage (Unit × List (Nat × Asking)) where
  toBench := (Stage.bare []).toBench
  browser := Browser.obliging.recorded
  scenarios := .memory []
  sessions := .memory
  sink := .memory
  listening := false
  epoch := ⟨0, 0⟩

namespace Perform

/-- A desk with one picture of one byte. -/
def album (name : String) : Desk := .ofDisk ⟨[], [([name], .file [1])]⟩

/-- The run in which the picture of this name is pasted. -/
def pasting (name : String) :
    Exit (Except Failure Unit) × Clock × World (Unit × List (Nat × Asking)) × Trace :=
  (paste .obliging ⟨"r", 0, 0⟩ ["#a"] name 0).run .none .start
    (.ofPage ((), []) (album name), .empty)

theorem before_pasting (name : String) :
    Given (Prod.snd : Unit × List (Nat × Asking) → _) [] (.ofPage ((), []) (album name), .empty) := rfl

theorem paste_embeds_quoted :
    ∃ c' st', pasting "\"截图\".png" = (.done (.ok ()), c', st') ∧
      (album "\"截图\".png").disk.readBytes "\"截图\".png" = .ok [1] ∧
      Given Prod.snd [Paste.scriptAtOnce "\"截图\".png" [1]] st' := by
  have hdone : (pasting "\"截图\".png").1 = .done (.ok ()) := by decide +kernel
  have readable : (album "\"截图\".png").disk.readBytes "\"截图\".png" = .ok [1] := by decide +kernel
  have unmarked : Text.contains (Paste.fileName "\"截图\".png") Paste.mimeMark = false := by decide +kernel
  generalize hran : pasting "\"截图\".png" = res at hdone
  obtain ⟨e, c', st'⟩ := res
  obtain rfl : e = .done (.ok ()) := hdone
  refine ⟨c', st', rfl, readable, ?_⟩
  unfold pasting at hran
  obtain ⟨hgiven, hintact, -⟩ :=
    paste_embeds Browser.obliging.records_recorded (before_pasting _) readable hran
  rw [← hintact.mpr unmarked]
  exact hgiven.resolve_left fun h => h.1 rfl

/-- A name may hold the mark of the kind. -/
theorem not_always_embedded :
    ¬ ∀ (name : String) (content : Disk.Bytes) (c' : Clock)
      (st' : World (Unit × List (Nat × Asking)) × Trace),
      (album name).disk.readBytes name = .ok content → pasting name = (.done (.ok ()), c', st') →
      Given Prod.snd [Paste.scriptAtOnce name content] st' := by
  intro embedded
  have hdone : (pasting "__MIME__.png").1 = .done (.ok ()) := by decide +kernel
  have readable : (album "__MIME__.png").disk.readBytes "__MIME__.png" = .ok [1] := by decide +kernel
  have marked : Text.contains (Paste.fileName "__MIME__.png") Paste.mimeMark = true := by decide +kernel
  generalize hran : pasting "__MIME__.png" = res at hdone
  obtain ⟨e, c', st'⟩ := res
  obtain rfl : e = .done (.ok ()) := hdone
  have given := embedded "__MIME__.png" [1] c' st' readable hran
  unfold pasting at hran
  have hleft := (brings_paste Browser.obliging.records_recorded).left
    (And.intro (before_pasting _) readable) hran
  have hother : Given Prod.snd [Paste.script "__MIME__.png" [1]] st' :=
    hleft.resolve_left fun h => h.1 rfl
  have same := hother.symm.trans given
  rw [List.cons.injEq, Paste.script_eq_scriptAtOnce_iff, marked] at same
  cases same.1

end Perform

end Rehearsal
