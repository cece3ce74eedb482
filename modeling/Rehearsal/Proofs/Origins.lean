import Rehearsal.Proofs.StepGrammar
import Rehearsal.Proofs.WrittenValues

/-! # Origins of addresses

The origin of an address is its scheme, its host and its port. Addresses are read as browsers write
them: scheme and host in small letters, and an address of the web. An address that begins with the text
of an origin need not have this origin; which do is said by how their authority goes on after the text.
-/
namespace Rehearsal.Web

open Text (digit? digits? splitOn)
open Json.Tree (IsDigits)

/-- The schemes whose addresses have an origin, each with its usual port. -/
def schemes : List (String × Nat) :=
  [("http", 80), ("https", 443), ("ws", 80), ("wss", 443), ("ftp", 21)]

/-- The port that is meant when none is given. -/
def usualPort? (scheme : String) : Option Nat := schemes.lookup scheme

structure Origin where
  scheme : String
  host : String
  port : Nat
deriving DecidableEq, Repr

/-- Ends the part of an address that tells the host. -/
def isBreak (c : Char) : Bool := c = '/' || c = '?' || c = '#' || c = '\\'

/-- User, host and port, of what follows the scheme. -/
def authority (cs : List Char) : List Char := cs.takeWhile (! isBreak ·)

/-- What follows the name and the password of a user. -/
def afterUser (cs : List Char) : List Char := ((splitOn '@' cs).getLast?).getD []

/-- The host, and the digits of a port. A colon inside of brackets begins no port. -/
def splitPort (cs : List Char) : List Char × Option (List Char) :=
  match cs.reverse.dropWhile fun c => (digit? c).isSome with
  | ':' :: host => (host.reverse, some (cs.reverse.takeWhile fun c => (digit? c).isSome).reverse)
  | _ => (cs, none)

/-- The host and the number of the port; no digits stand for the port of the scheme. -/
def hostPort (usual : Nat) (cs : List Char) : List Char × Nat :=
  match splitPort cs with
  | (host, none) => (host, usual)
  | (host, some digits) => (host, (digits? digits).getD usual)

namespace Origin

/-- The origin of what follows the scheme. -/
def ofRest (scheme : String) (usual : Nat) (cs : List Char) : Origin :=
  let (host, port) := hostPort usual (afterUser (authority cs))
  ⟨scheme, String.ofList host, port⟩

def ofAddress? (address : String) : Option Origin :=
  schemes.findSome? fun (scheme, usual) =>
    (Text.afterStart? (scheme ++ "://").toList address.toList).map (ofRest scheme usual)

/-- What is written of the port: nothing where it is the usual one of the scheme. -/
def portText (o : Origin) : String :=
  if usualPort? o.scheme = some o.port then "" else ":" ++ Text.decimal o.port

def text (o : Origin) : String := o.scheme ++ "://" ++ o.host ++ o.portText

/-- A way to write the port behind the host: not at all, as a colon alone, or with any digits. -/
inductive IsPort (o : Origin) : List Char → Prop
  | unwritten (usual : usualPort? o.scheme = some o.port) : IsPort o []
  | colon (usual : usualPort? o.scheme = some o.port) : IsPort o [':']
  | digits {cs : List Char} (read : digits? cs = some o.port) : IsPort o (':' :: cs)

/-- The scheme is known. The host neither ends the authority nor the user before it, and ends with
nothing that looks like a port. -/
structure Proper (o : Origin) : Prop where
  scheme : ∃ usual, usualPort? o.scheme = some usual
  unbroken : ∀ c ∈ o.host.toList, isBreak c = false
  userless : '@' ∉ o.host.toList
  portless : ∀ before digits, IsDigits digits → o.host.toList ≠ before ++ ':' :: digits

/-- The ways in which an authority that begins like the text of the origin can end for the address to
have this origin: the port goes on and stays the same number, or all there was is the name and
password of a user, and host and port come again. -/
inductive Continues (o : Origin) (rest : List Char) : Prop
  | port (h : o.IsPort (o.portText.toList ++ rest))
  | user {before port : List Char} (h : o.IsPort port)
    (again : rest = before ++ '@' :: (o.host.toList ++ port))

/-- The address begins with the text of the origin and goes on in such a way. -/
def Within (o : Origin) (address : String) : Prop :=
  ∃ rest, address.toList = o.text.toList ++ rest ∧ o.Continues (authority rest)

end Origin

/-- Two addresses have one origin. -/
def SameOrigin (a b : String) : Prop := ∃ o, Origin.ofAddress? a = some o ∧ Origin.ofAddress? b = some o

instance (a b : String) : Decidable (SameOrigin a b) :=
  decidable_of_iff ((Origin.ofAddress? a).isSome ∧ Origin.ofAddress? a = Origin.ofAddress? b) <| by
    rw [Option.isSome_iff_exists]
    exact ⟨fun ⟨⟨o, ha⟩, hab⟩ => ⟨o, ha, hab ▸ ha⟩, fun ⟨o, ha, hb⟩ => ⟨⟨o, ha⟩, ha.trans hb.symm⟩⟩

/-! ## Parts of an authority -/

theorem splitPort_of_isDigits {host digits : List Char} (h : IsDigits digits) :
    splitPort (host ++ ':' :: digits) = (host, some digits) := by
  have hdigits : ∀ c ∈ digits.reverse, (digit? c).isSome = true := fun c hc => h c (List.mem_reverse.mp hc)
  have hcolon : (digit? ':').isSome = false := by decide
  have hreverse : (host ++ ':' :: digits).reverse = digits.reverse ++ ':' :: host.reverse := by simp
  simp [splitPort, hreverse, List.dropWhile_append_of_pos hdigits, List.takeWhile_append_of_pos hdigits,
    hcolon]

theorem eq_of_splitPort {cs host digits : List Char} (h : splitPort cs = (host, some digits)) :
    cs = host ++ ':' :: digits ∧ IsDigits digits := by
  unfold splitPort at h
  split at h
  · next rest hrest =>
    obtain ⟨rfl, rfl⟩ : rest.reverse = host ∧ _ = digits := by simpa using h
    have hwhole : cs.reverse.takeWhile (fun c => (digit? c).isSome) ++ ':' :: rest = cs.reverse := by
      rw [← hrest, List.takeWhile_append_dropWhile]
    refine ⟨?_, fun c hc => ?_⟩
    · simpa using (congrArg List.reverse hwhole).symm
    · exact List.all_eq_true.mp List.all_takeWhile c (List.mem_reverse.mp hc)
  · simp at h

theorem splitPort_cases (cs : List Char) :
    splitPort cs = (cs, none) ∨ ∃ host digits, splitPort cs = (host, some digits) := by
  unfold splitPort
  split
  · exact .inr ⟨_, _, rfl⟩
  · exact .inl rfl

theorem authority_append {before : List Char} (h : ∀ c ∈ before, isBreak c = false) (rest : List Char) :
    authority (before ++ rest) = before ++ authority rest :=
  List.takeWhile_append_of_pos fun c hc => by rw [h c hc]; rfl

theorem afterUser_of_not_mem {cs : List Char} (h : '@' ∉ cs) : afterUser cs = cs := by
  simp [afterUser, Text.splitOn_of_not_mem h]

theorem afterUser_append (before : List Char) {rest : List Char} (h : '@' ∉ rest) :
    afterUser (before ++ '@' :: rest) = rest := by
  simp [afterUser, Text.splitOn_append_cons, Text.splitOn_of_not_mem h]

/-- What follows a user holds no further mark of one. -/
theorem exists_afterUser {cs : List Char} (h : '@' ∈ cs) :
    ∃ before rest, cs = before ++ '@' :: rest ∧ '@' ∉ rest := by
  obtain ⟨rest, before, hsplit, hnot⟩ := List.eq_append_cons_of_mem (List.mem_reverse.mpr h)
  refine ⟨before.reverse, rest.reverse, ?_, by simpa using hnot⟩
  rw [← List.reverse_inj, hsplit]
  simp

theorem userless_of_isDigits {digits : List Char} (h : IsDigits digits) : '@' ∉ digits := fun hmem => by
  have hnone : (digit? '@').isSome = false := by decide
  rw [h '@' hmem] at hnone
  cases hnone

namespace Origin

variable {o : Origin} {usual : Nat} {cs rest : List Char}

theorem Proper.splitPort_host (h : o.Proper) : splitPort o.host.toList = (o.host.toList, none) := by
  rcases splitPort_cases o.host.toList with hnone | ⟨host, digits, hsome⟩
  · exact hnone
  · obtain ⟨heq, hdigits⟩ := eq_of_splitPort hsome
    exact absurd heq (h.portless host digits hdigits)

theorem IsPort.isDigits {port : List Char} (h : o.IsPort port) :
    port = [] ∨ ∃ digits, port = ':' :: digits ∧ IsDigits digits := by
  cases h with
  | unwritten usual => exact .inl rfl
  | colon usual => exact .inr ⟨[], rfl, by simp [IsDigits]⟩
  | digits read => exact .inr ⟨_, rfl, (Text.digits?_eq_some_iff.mp read).2.1⟩

/-- What is read is the host with a way to write the port. -/
theorem Proper.hostPort_eq_iff (h : o.Proper) (husual : usualPort? o.scheme = some usual) :
    hostPort usual cs = (o.host.toList, o.port) ↔ ∃ port, cs = o.host.toList ++ port ∧ o.IsPort port := by
  constructor
  · intro hread
    unfold hostPort at hread
    rcases splitPort_cases cs with hnone | ⟨host, digits, hsome⟩
    · rw [hnone] at hread
      obtain ⟨hhost, rfl⟩ := Prod.mk.inj hread
      exact ⟨[], by rw [hhost, List.append_nil], .unwritten husual⟩
    · rw [hsome] at hread
      obtain ⟨rfl, hport⟩ := Prod.mk.inj hread
      obtain ⟨rfl, hdigits⟩ := eq_of_splitPort hsome
      refine ⟨':' :: digits, rfl, ?_⟩
      by_cases hempty : digits = []
      · subst hempty
        exact .colon (husual.trans (congrArg some hport))
      · have hnumber := Text.digits?_eq_some_iff.mpr ⟨hempty, hdigits, rfl⟩
        rw [hnumber] at hport
        exact .digits (hnumber.trans (congrArg some hport))
  · rintro ⟨port, rfl, hport⟩
    cases hport with
    | unwritten same =>
      rw [List.append_nil, hostPort, h.splitPort_host, Option.some.inj (husual.symm.trans same)]
    | colon same =>
      rw [hostPort, splitPort_of_isDigits (by simp [IsDigits]), Option.some.inj (husual.symm.trans same)]
      rfl
    | digits read =>
      rw [hostPort, splitPort_of_isDigits (Text.digits?_eq_some_iff.mp read).2.1]
      simp only [read, Option.getD_some]

theorem IsPort.userless {port : List Char} (h : o.IsPort port) : '@' ∉ port := by
  rcases h.isDigits with rfl | ⟨digits, rfl, hdigits⟩
  · exact List.not_mem_nil
  · simp [userless_of_isDigits hdigits]

theorem isPort_portText (o : Origin) : o.IsPort o.portText.toList := by
  unfold portText
  split
  · next husual => exact .unwritten husual
  · rw [String.toList_append, Text.toList_decimal]
    refine .digits (Text.digits?_eq_some_iff.mpr ⟨Text.digits_ne_nil _, Text.isDigits_digits _, ?_⟩)
    exact Text.ofDigits_digits _

theorem IsPort.unbroken {port : List Char} (h : o.IsPort port) : ∀ c ∈ port, isBreak c = false := by
  have hdigit : ∀ c, (digit? c).isSome = true → isBreak c = false := by
    intro c hc
    cases hbreak : isBreak c with
    | false => rfl
    | true =>
      simp only [isBreak, Bool.or_eq_true, decide_eq_true_eq] at hbreak
      rcases hbreak with ((rfl | rfl) | rfl) | rfl <;> exact absurd hc (by decide)
  rcases h.isDigits with rfl | ⟨digits, rfl, hdigits⟩
  · exact fun c hc => absurd hc List.not_mem_nil
  · rintro c (_ | ⟨_, hc⟩)
    · rfl
    · exact hdigit c (hdigits c hc)

theorem ofAddress?_of_scheme {scheme address : String} (husual : usualPort? scheme = some usual)
    (haddress : address.toList = (scheme ++ "://").toList ++ cs) :
    ofAddress? address = some (ofRest scheme usual cs) := by
  obtain ⟨before, after, hschemes, -⟩ := List.lookup_eq_some_iff.mp husual
  have hmem : (scheme, usual) ∈ schemes := by simp [hschemes]
  unfold ofAddress?
  rw [haddress]
  simp only [schemes, List.mem_cons, List.not_mem_nil, or_false, Prod.mk.injEq] at hmem
  rcases hmem with ⟨rfl, rfl⟩ | ⟨rfl, rfl⟩ | ⟨rfl, rfl⟩ | ⟨rfl, rfl⟩ | ⟨rfl, rfl⟩ <;> rfl

/-- After the user's part of the authority, host and port are left exactly if it goes on in such a way. -/
theorem Proper.afterUser_eq_iff (h : o.Proper) :
    (∃ port, afterUser (o.host.toList ++ (o.portText.toList ++ rest)) = o.host.toList ++ port ∧
      o.IsPort port) ↔ o.Continues rest := by
  constructor
  · rintro ⟨port, hafter, hport⟩
    -- With the mark of a user in the rest, all before the last one is name and password.
    by_cases hat : '@' ∈ rest
    · obtain ⟨before, again, rfl, hnot⟩ := exists_afterUser hat
      have hsplit : o.host.toList ++ (o.portText.toList ++ (before ++ '@' :: again)) =
          (o.host.toList ++ o.portText.toList ++ before) ++ '@' :: again := by simp
      rw [hsplit, afterUser_append _ hnot] at hafter
      subst hafter
      exact .user hport rfl
    · have hnot : '@' ∉ o.host.toList ++ (o.portText.toList ++ rest) := by
        simp [h.userless, (isPort_portText o).userless, hat]
      rw [afterUser_of_not_mem hnot] at hafter
      obtain rfl := List.append_cancel_left hafter
      exact .port hport
  · rintro (hport | ⟨hport, rfl⟩)
    · have hnot : '@' ∉ o.host.toList ++ (o.portText.toList ++ rest) := by
        simpa [h.userless] using hport.userless
      exact ⟨_, afterUser_of_not_mem hnot, hport⟩
    · next before port =>
      have hnot : '@' ∉ o.host.toList ++ port := by simp [h.userless, hport.userless]
      have hsplit : o.host.toList ++ (o.portText.toList ++ (before ++ '@' :: (o.host.toList ++ port))) =
          (o.host.toList ++ o.portText.toList ++ before) ++ '@' :: (o.host.toList ++ port) := by simp
      exact ⟨port, by rw [hsplit, afterUser_append _ hnot], hport⟩

/-! ## Addresses that begin with the text of an origin -/

/-- An address that begins with the text of an origin has this origin exactly if its authority goes on
in such a way. -/
theorem Proper.ofAddress?_eq_iff (h : o.Proper) {address : String} {cs : List Char}
    (haddress : address.toList = o.text.toList ++ cs) :
    ofAddress? address = some o ↔ o.Continues (authority cs) := by
  obtain ⟨usual, husual⟩ := h.scheme
  have hscheme : address.toList = (o.scheme ++ "://").toList ++
      (o.host.toList ++ (o.portText.toList ++ cs)) := by simp [haddress, text]
  have hauthority : authority (o.host.toList ++ (o.portText.toList ++ cs)) =
      o.host.toList ++ (o.portText.toList ++ authority cs) := by
    rw [authority_append h.unbroken, authority_append (isPort_portText o).unbroken]
  rw [ofAddress?_of_scheme husual hscheme, ofRest, hauthority, ← h.afterUser_eq_iff,
    ← h.hostPort_eq_iff husual]
  generalize hostPort usual _ = read
  obtain ⟨host, port⟩ := read
  obtain ⟨scheme, ohost, oport⟩ := o
  constructor
  · intro hsame
    cases hsame
    simp
  · intro hsame
    cases hsame
    simp

/-- Without a colon, a host need only be looked through. -/
theorem Proper.of_colonless {usual : Nat} (husual : usualPort? o.scheme = some usual)
    (h : (o.host.toList.all fun c => !isBreak c && c != '@' && c != ':') = true) : o.Proper := by
  have hall : ∀ c ∈ o.host.toList, isBreak c = false ∧ c ≠ '@' ∧ c ≠ ':' := by
    simpa [and_assoc] using h
  refine ⟨⟨usual, husual⟩, fun c hc => (hall c hc).1, fun hat => (hall _ hat).2.1 rfl, ?_⟩
  intro before digits _ hhost
  exact (hall ':' (by simp [hhost])).2.2 rfl

/-- The text of an origin is an address with this origin. -/
theorem Proper.ofAddress?_text (h : o.Proper) : ofAddress? o.text = some o :=
  (h.ofAddress?_eq_iff (List.append_nil _).symm).mpr
    (.port (by simpa [authority] using isPort_portText o))

theorem Proper.sameOrigin_iff_within (h : o.Proper) {address : String}
    (hstart : Text.startsWith address o.text = true) : SameOrigin address o.text ↔ o.Within address := by
  obtain ⟨cs, hcs⟩ := List.isPrefixOf_iff_prefix.mp hstart
  have hread := h.ofAddress?_eq_iff hcs.symm
  constructor
  · rintro ⟨other, haddress, htext⟩
    obtain rfl := Option.some.inj (h.ofAddress?_text.symm.trans htext)
    exact ⟨cs, hcs.symm, hread.mp haddress⟩
  · rintro ⟨rest, hrest, continues⟩
    exact ⟨o, (h.ofAddress?_eq_iff hrest).mpr continues, h.ofAddress?_text⟩

/-- A port may go on if it stays the same number. -/
example : SameOrigin "http://[::1]:080/a" "http://[::1]" ∧
    ¬ SameOrigin "http://[::1]:8080/a" "http://[::1]" := by decide

end Origin

end Rehearsal.Web
