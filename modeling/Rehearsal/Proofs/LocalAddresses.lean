import Rehearsal.Page.Address
import Rehearsal.Proofs.LexicalPaths

/-! # Addresses of local files

What a path is completed to is read back: the escapes are undone byte by byte, and what is found is the
normal form of the path from the working folder on. No escaped name holds a mark that ends the path of
an address, so that the first such mark is the one that was there before.
-/
namespace Rehearsal

namespace Text

/-- The bytes of a text. -/
def bytes (cs : List Char) : List UInt8 := cs.flatMap String.utf8EncodeChar

theorem bytes_cons (c : Char) (cs : List Char) : bytes (c :: cs) = String.utf8EncodeChar c ++ bytes cs := rfl

theorem bytes_append (cs ds : List Char) : bytes (cs ++ ds) = bytes cs ++ bytes ds := List.flatMap_append

theorem toUTF8_eq_bytes (s : String) : s.toUTF8.data.toList = bytes s.toList := by
  have hbytes : s.toUTF8 = (bytes s.toList).toByteArray := String.utf8Encode_toList.symm
  rw [hbytes, List.toList_data_toByteArray]

theorem of_mem_cutBefore {p : Char → Bool} {cs : List Char} {c : Char} (h : c ∈ (cutBefore p cs).1) :
    p c = false := by
  simpa using List.all_eq_true.1 List.all_takeWhile c h

theorem cutBefore_rest (p : Char → Bool) (cs : List Char) :
    (cutBefore p cs).2 = [] ∨ ∃ c tail, (cutBefore p cs).2 = c :: tail ∧ p c = true := by
  cases hrest : (cutBefore p cs).2 with
  | nil => exact .inl rfl
  | cons c tail =>
    have hhead := List.head?_dropWhile_not (! p ·) cs
    rw [cutBefore] at hrest
    dsimp only at hrest
    rw [hrest] at hhead
    exact .inr ⟨c, tail, rfl, by simpa using hhead⟩

end Text

namespace Disk.Path

/-- An absolute path made of these names. -/
def ofNames (names : List String) : Path := "/" ++ Text.joinWith "/" names

theorem toList_ofNames {names : List String} (h : names ≠ []) :
    (ofNames names).toList = names.flatMap fun name => '/' :: name.toList := by
  induction names with
  | nil => exact absurd rfl h
  | cons name more ih =>
    cases more with
    | nil => simp [ofNames, Text.joinWith]
    | cons next rest =>
      have hrest := ih (List.cons_ne_nil next rest)
      rw [List.flatMap_cons, ← hrest, ofNames, ofNames, Text.joinWith_cons_cons]
      simp

theorem isAbsolute_join {p : Path} (h : isAbsolute p = true) (q : Path) : isAbsolute (p.join q) = true := by
  have hne : p ≠ "" := by
    rintro rfl
    exact absurd h (by decide)
  unfold join
  split
  · assumption
  split
  · rw [isAbsolute_append hne, h]
  · rw [String.append_assoc, isAbsolute_append hne, h]

end Disk.Path

namespace Address

open Text (bytes)
open Disk (Path)
open Disk.Path (NormalForm)

/-- The bytes that a text stands for when every `%` with two hexadecimal digits behind it stands for
one. -/
def unescape : List Char → List UInt8
  | '%' :: a :: b :: rest =>
    match Text.hexValue? a, Text.hexValue? b with
    | some high, some low => UInt8.ofNat (16 * high + low) :: unescape rest
    | _, _ => String.utf8EncodeChar '%' ++ unescape (a :: b :: rest)
  | c :: rest => String.utf8EncodeChar c ++ unescape rest
  | [] => []

theorem unescape_cons {c : Char} (h : c ≠ '%') (rest : List Char) :
    unescape (c :: rest) = String.utf8EncodeChar c ++ unescape rest := by
  rw [unescape]
  rintro a b tail rfl
  exact absurd rfl h

theorem unescape_escape {a b : Char} {high low : Nat} (ha : Text.hexValue? a = some high)
    (hb : Text.hexValue? b = some low) (rest : List Char) :
    unescape ('%' :: a :: b :: rest) = UInt8.ofNat (16 * high + low) :: unescape rest := by
  simp only [unescape, ha, hb]

/-- A `%` without two digits behind it stands for itself. -/
theorem unescape_percent {rest : List Char}
    (h : ∀ a b tail, rest = a :: b :: tail → Text.hexValue? a = none ∨ Text.hexValue? b = none) :
    unescape ('%' :: rest) = String.utf8EncodeChar '%' ++ unescape rest := by
  match rest with
  | [] => rfl
  | [a] => simp [unescape]
  | a :: b :: tail =>
    obtain ha | hb := h a b tail rfl
    · simp only [unescape, ha]
    · cases ha : Text.hexValue? a <;> simp only [unescape, ha, hb]

theorem hexValue?_slash : Text.hexValue? '/' = none := by decide

/-- No escape reaches over a slash. -/
theorem unescape_slash (cs rest : List Char) :
    unescape (cs ++ '/' :: rest) = unescape cs ++ unescape ('/' :: rest) := by
  fun_induction unescape cs with
  | case1 a b tail high low hb ha ih =>
    have htail : '%' :: a :: b :: tail ++ '/' :: rest = '%' :: a :: b :: (tail ++ '/' :: rest) := rfl
    rw [htail, unescape_escape ha hb, ih, List.cons_append]
  | case2 a b tail hnone ih =>
    have hplain : Text.hexValue? a = none ∨ Text.hexValue? b = none := by
      cases ha : Text.hexValue? a with
      | none => exact .inl rfl
      | some high =>
        cases hb : Text.hexValue? b with
        | none => exact .inr rfl
        | some low => exact absurd hb (hnone high low ha)
    rw [List.cons_append, unescape_percent, ih, List.append_assoc]
    intro a' b' tail' htail
    simp only [List.cons_append, List.cons.injEq] at htail
    obtain ⟨rfl, rfl, -⟩ := htail
    exact hplain
  | case3 c tail hshort ih =>
    by_cases hc : c = '%'
    · subst hc
      rw [List.cons_append, unescape_percent, ih, List.append_assoc]
      intro a b more hmore
      match tail with
      | [] =>
        obtain ⟨rfl, -⟩ := List.cons.inj hmore
        exact .inl hexValue?_slash
      | [first] =>
        obtain ⟨-, hmore⟩ := List.cons.inj hmore
        obtain ⟨rfl, -⟩ := List.cons.inj hmore
        exact .inr hexValue?_slash
      | first :: second :: tail => exact absurd rfl (hshort first second tail rfl)
    · rw [List.cons_append, unescape_cons hc, ih, List.append_assoc]
  | case4 => rfl

/-! ### Escapes -/

/-- No character is one of the marks that end the path of an address. -/
def Unmarked (cs : List Char) : Prop := ∀ c ∈ cs, c ≠ '?' ∧ c ≠ '#'

instance : DecidablePred Unmarked := fun cs => List.decidableBAll (fun c => c ≠ '?' ∧ c ≠ '#') cs

/-- What is asked of the escaping of names: the marks that end the path of an address do not get
through, and unescaping gives the bytes of the name back. -/
structure Escapes (escape : String → List Char) : Prop where
  hides : ∀ name, Unmarked (escape name)
  undone : ∀ name, unescape (escape name) = bytes name.toList

/-- A hexadecimal digit with a capital letter. -/
def capitalDigit (n : Nat) : Char := if n < 10 then Char.ofNat (48 + n) else Char.ofNat (55 + n)

theorem capitalDigit_eq (n : Fin 16) : Text.hexValue? (capitalDigit n) = some n.val ∧
    capitalDigit n ≠ '?' ∧ capitalDigit n ≠ '#' := by
  revert n
  decide

theorem escapeByte_of_plain {b : UInt8} (h : isPlain b = true) : escapeByte b = [Char.ofNat b.toNat] := by
  rw [escapeByte, if_pos h]

theorem escapeByte_of_not_plain {b : UInt8} (h : ¬ isPlain b = true) :
    escapeByte b = ['%', capitalDigit (b.toNat / 16), capitalDigit (b.toNat % 16)] := by
  rw [escapeByte, if_neg h]
  rfl

/-- A byte that stands for itself is that of a character, and of none that is special in an address. -/
theorem eq_of_isPlain {b : UInt8} (h : isPlain b = true) :
    String.utf8EncodeChar (Char.ofNat b.toNat) = [b] ∧ Char.ofNat b.toNat ≠ '%' ∧
      Char.ofNat b.toNat ≠ '?' ∧ Char.ofNat b.toNat ≠ '#' := by
  have hall : ∀ n : Fin 256, isPlain (UInt8.ofNat n) = true →
      String.utf8EncodeChar (Char.ofNat n) = [UInt8.ofNat n] ∧ Char.ofNat n ≠ '%' ∧
        Char.ofNat n ≠ '?' ∧ Char.ofNat n ≠ '#' := by decide +kernel
  simpa using hall ⟨b.toNat, b.toNat_lt⟩ (by simpa using h)

theorem unescape_escapeByte (b : UInt8) (rest : List Char) :
    unescape (escapeByte b ++ rest) = b :: unescape rest := by
  by_cases h : isPlain b = true
  · obtain ⟨hbyte, hpercent, -⟩ := eq_of_isPlain h
    rw [escapeByte_of_plain h, List.singleton_append, unescape_cons hpercent, hbyte]
    rfl
  · have hlt : b.toNat < 256 := b.toNat_lt
    have hhigh := (capitalDigit_eq ⟨b.toNat / 16, by omega⟩).1
    have hlow := (capitalDigit_eq ⟨b.toNat % 16, by omega⟩).1
    have hbyte : 16 * (b.toNat / 16) + b.toNat % 16 = b.toNat := by omega
    rw [escapeByte_of_not_plain h, List.cons_append, List.cons_append, List.cons_append, List.nil_append,
      unescape_escape hhigh hlow, hbyte, UInt8.ofNat_toNat]

theorem unmarked_escapeByte (b : UInt8) : Unmarked (escapeByte b) := by
  intro c hc
  by_cases h : isPlain b = true
  · rw [escapeByte_of_plain h, List.mem_singleton] at hc
    rw [hc]
    exact (eq_of_isPlain h).2.2
  · have hlt : b.toNat < 256 := b.toNat_lt
    rw [escapeByte_of_not_plain h, List.mem_cons, List.mem_cons, List.mem_singleton] at hc
    obtain rfl | rfl | rfl := hc
    · decide
    · exact (capitalDigit_eq ⟨b.toNat / 16, by omega⟩).2
    · exact (capitalDigit_eq ⟨b.toNat % 16, by omega⟩).2

theorem escapes_escapeName : Escapes escapeName := by
  constructor
  · intro name c hc
    obtain ⟨b, -, hb⟩ := List.mem_flatMap.1 hc
    exact unmarked_escapeByte b c hb
  · intro name
    have hread : ∀ bs : List UInt8, unescape (bs.flatMap escapeByte) = bs := by
      intro bs
      induction bs with
      | nil => rfl
      | cons b bs ih => rw [List.flatMap_cons, unescape_escapeByte, ih]
    rw [escapeName, hread, Text.toUTF8_eq_bytes]

/-! ### The path of an address -/

/-- The names of a path as they are written in an address. -/
def pathText (escape : String → List Char) : List String → List Char
  | [] => ['/']
  | names => names.flatMap fun name => '/' :: escape name

/-- `complete` with any escaping of the names. -/
def completeBy (escape : String → List Char) (folder : Path) (url : String) : String :=
  if isComplete url then url
  else
    let (path, rest) := Text.cutBefore (fun c => c = '?' || c = '#') url.toList
    let full := folder.join (String.ofList path)
    "file://" ++ String.ofList (pathText escape (Path.lexical full.names) ++ rest)

theorem complete_eq_completeBy (folder : Path) (url : String) :
    complete folder url = completeBy escapeName folder url := by
  have hnames : ∀ (names : List String) (rest : List Char), ofNames names ++ String.ofList rest =
      "file://" ++ String.ofList (pathText escapeName names ++ rest) := by
    intro names rest
    cases names with
    | nil => simp [ofNames, pathText, ← String.append_assoc]
    | cons name more => rw [ofNames, pathText, String.ofList_append, String.append_assoc] <;> simp
  rw [complete, completeBy]
  simp only [hnames]

section

variable {escape : String → List Char}

theorem unmarked_pathText (h : Escapes escape) (names : List String) :
    Unmarked (pathText escape names) := by
  intro c hc
  cases names with
  | nil =>
    rw [pathText, List.mem_singleton] at hc
    subst hc
    decide
  | cons name more =>
    obtain ⟨other, -, hother⟩ := List.mem_flatMap.1 hc
    obtain rfl | hother := List.mem_cons.1 hother
    · decide
    · exact h.hides other c hother

theorem unescape_names (h : Escapes escape) (names : List String) :
    unescape (names.flatMap fun name => '/' :: escape name) =
      bytes (names.flatMap fun name => '/' :: name.toList) := by
  induction names with
  | nil => rfl
  | cons name more ih =>
    have hone : unescape ('/' :: escape name) = bytes ('/' :: name.toList) := by
      rw [unescape_cons (by decide), h.undone, Text.bytes_cons]
    rw [List.flatMap_cons, List.flatMap_cons, Text.bytes_append, ← ih, ← hone]
    cases more with
    | nil => simp [unescape]
    | cons next more => exact unescape_slash ('/' :: escape name) _

/-- What is read back is the text of the path, a single slash at the root. -/
theorem unescape_pathText (h : Escapes escape) (names : List String) :
    unescape (pathText escape names) = bytes (Path.ofNames names).toList := by
  cases names with
  | nil => rfl
  | cons name more =>
    rw [pathText, unescape_names h, Path.toList_ofNames (List.cons_ne_nil name more)]
    exact List.cons_ne_nil name more

end

/-! ### Completion -/

/-- The address begins, whatever the case of its letters, in one of the known ways. -/
def Begins (url : String) : Prop :=
  ∃ start ∈ knownStarts, ∃ head rest, url.toList = head ++ rest ∧ head.map Text.small = start.toList

theorem isComplete_iff (url : String) : isComplete url = true ↔ Begins url := by
  rw [isComplete, List.any_eq_true]
  apply exists_congr
  intro start
  apply and_congr_right
  intro _
  rw [Text.startsWith, List.isPrefixOf_iff_prefix, Text.smallText, String.toList_ofList]
  constructor
  · rintro ⟨tail, htail⟩
    obtain ⟨head, rest, hurl, hhead, -⟩ := List.map_eq_append_iff.1 htail.symm
    exact ⟨head, rest, hurl, hhead⟩
  · rintro ⟨head, rest, hurl, hhead⟩
    rw [hurl, List.map_append, hhead]
    exact List.prefix_append _ _

/-- The result is the address of a local file. The path ends where the first mark is, and `names` are
its normal form from the folder on; `written` is read back as that form, and what follows the path
stays as it was. -/
structure Located (folder : Path) (url result : String) (path rest written : List Char)
    (names : List String) : Prop where
  cut : url.toList = path ++ rest
  unmarked : Unmarked path
  marked : rest = [] ∨ ∃ tail, rest = '?' :: tail ∨ rest = '#' :: tail
  absolute : Path.isAbsolute (folder.join (String.ofList path)) = true
  normal : ∀ others, NormalForm (folder.join (String.ofList path)) others ↔ others = names
  unslashed : ∀ name ∈ names, '/' ∉ name.toList
  made : result.toList = "file://".toList ++ written ++ rest
  hidden : Unmarked ("file://".toList ++ written)
  read : unescape written = bytes (Path.ofNames names).toList

/-- An address that begins in a known way is kept, and every other text is the path of a local file. -/
structure Completes (folder : Path) (url result : String) : Prop where
  kept : Begins url → result = url
  located : ¬ Begins url → ∃ path rest written names, Located folder url result path rest written names

theorem unmarked_start : Unmarked "file://".toList := by decide

variable {escape : String → List Char}

theorem completeBy_of_isComplete {url : String} (h : isComplete url = true) (folder : Path) :
    completeBy escape folder url = url := by
  rw [completeBy, if_pos h]

theorem completeBy_of_not_isComplete {url : String} (h : ¬ isComplete url = true) (folder : Path) :
    completeBy escape folder url =
      let cut := Text.cutBefore (fun c => c = '?' || c = '#') url.toList
      "file://" ++ String.ofList
        (pathText escape (Path.lexical (folder.join (String.ofList cut.1)).names) ++ cut.2) := by
  rw [completeBy, if_neg h]

theorem located_completeBy (h : Escapes escape) {folder : Path} (hfolder : folder.isAbsolute = true)
    {url : String} (hurl : ¬ isComplete url = true) :
    ∃ path rest written names,
      Located folder url (completeBy escape folder url) path rest written names := by
  let cut := Text.cutBefore (fun c => c = '?' || c = '#') url.toList
  let full := folder.join (String.ofList cut.1)
  let names := Path.lexical full.names
  refine ⟨cut.1, cut.2, pathText escape names, names, ?_⟩
  constructor
  case cut => exact (Text.cutBefore_append _ _).symm
  case unmarked =>
    intro c hc
    simpa using Text.of_mem_cutBefore hc
  case marked =>
    obtain hnil | ⟨c, tail, hrest, hc⟩ := Text.cutBefore_rest (fun c => c = '?' || c = '#') url.toList
    · exact .inl hnil
    · obtain rfl | rfl : c = '?' ∨ c = '#' := by simpa using hc
      · exact .inr ⟨tail, .inl hrest⟩
      · exact .inr ⟨tail, .inr hrest⟩
  case absolute => exact Path.isAbsolute_join hfolder _
  case normal =>
    intro others
    exact ⟨NormalForm.eq_lexical, fun hothers => hothers ▸ Path.normalForm_lexical full⟩
  case unslashed => exact fun name => Path.not_mem_of_mem_lexical
  case made =>
    rw [completeBy_of_not_isComplete hurl]
    simp [cut, names, full]
  case hidden =>
    intro c hc
    obtain hc | hc := List.mem_append.1 hc
    · exact unmarked_start c hc
    · exact unmarked_pathText h names c hc
  case read => exact unescape_pathText h names

theorem isComplete_completeBy (folder : Path) (url : String) :
    isComplete (completeBy escape folder url) = true := by
  by_cases h : isComplete url = true
  · rw [completeBy_of_isComplete h, h]
  · rw [completeBy_of_not_isComplete h, isComplete_iff]
    refine ⟨"file://", by decide, "file://".toList, _, by rw [String.toList_append], by decide⟩

/-- Completion with any escaping of names that hides the marks and can be undone, the one in use among
them, keeps the addresses and locates the files; what it gives is not completed once more. -/
theorem complete_keeps_or_locates {folder : Path} (h : folder.isAbsolute = true) (url : String) :
    complete folder url = completeBy escapeName folder url ∧ Escapes escapeName ∧
      ∀ escape, Escapes escape →
        Completes folder url (completeBy escape folder url) ∧
          ∀ other, completeBy escape other (completeBy escape folder url) = completeBy escape folder url := by
  refine ⟨complete_eq_completeBy folder url, escapes_escapeName, ?_⟩
  intro escape hescape
  refine ⟨⟨?_, ?_⟩, ?_⟩
  · intro hbegins
    exact completeBy_of_isComplete ((isComplete_iff url).2 hbegins) folder
  · intro hbegins
    exact located_completeBy hescape h (mt (isComplete_iff url).1 hbegins)
  · exact completeBy_of_isComplete (isComplete_completeBy folder url)

theorem complete_keeps_or_locates_marked_folder :
    Path.isAbsolute "/srv/a?b#c%d" = true ∧
      complete "/srv/a?b#c%d" "x/.././y?q=../z#t" = "file:///srv/a%3Fb%23c%25d/y?q=../z#t" ∧
      Completes "/srv/a?b#c%d" "x/.././y?q=../z#t" "file:///srv/a%3Fb%23c%25d/y?q=../z#t" := by
  have hmade : complete "/srv/a?b#c%d" "x/.././y?q=../z#t" = "file:///srv/a%3Fb%23c%25d/y?q=../z#t" := rfl
  have habsolute : Path.isAbsolute "/srv/a?b#c%d" = true := by decide
  obtain ⟨hby, hescapes, hall⟩ := complete_keeps_or_locates habsolute "x/.././y?q=../z#t"
  obtain ⟨hcompletes, -⟩ := hall escapeName hescapes
  rw [← hby, hmade] at hcompletes
  exact ⟨habsolute, hmade, hcompletes⟩

end Address

end Rehearsal
