import Rehearsal.Page.Selector
import Rehearsal.Proofs.MapsByName

/-! # References to elements

A target that names an element is cut at its first dot. So the elements of a map whose name has no dot
can all be referred to, whatever their own names are; with a dot in the name of the map the reference is
read as one to an element of the map that the text before this dot names.
-/
namespace Rehearsal

theorem Text.cutAt?_append {mark : Char} {before : List Char} (h : mark ∉ before) (after : List Char) :
    cutAt? [mark] (before ++ mark :: after) = some (before, after) := by
  induction before with
  | nil => simp [cutAt?, afterStart?]
  | cons c rest ih =>
    rw [List.mem_cons, not_or] at h
    simp [cutAt?, afterStart?, h.1, ih h.2]

/-- The target made of the names of a map and of an element. -/
def reference (map element : String) : String := map ++ "." ++ element

namespace Selectors

variable {s : Selectors} {map element : String}

theorem splitReference?_reference (hmap : map ≠ "") (hdot : '.' ∉ map.toList) (helement : element ≠ "") :
    splitReference? (reference map element) = some (map, element) := by
  have hcut : Text.cutAt? ['.'] (reference map element).toList = some (map.toList, element.toList) := by
    rw [← Text.cutAt?_append hdot]
    simp [reference]
  simp [splitReference?, hcut, hmap, helement]

/-- A name that has a dot, but not in front, as what stands before its first dot and what stands after it. -/
theorem exists_first_dot {name : String} (hdot : '.' ∈ name.toList) (hfront : name.toList.head? ≠ some '.') :
    ∃ before after, name = reference before after ∧ '.' ∉ before.toList ∧ before ≠ "" := by
  obtain ⟨before, after, hname, hnot⟩ := List.eq_append_cons_of_mem hdot
  refine ⟨String.ofList before, String.ofList after, ?_, by simpa using hnot, ?_⟩
  · apply String.toList_injective
    simp [reference, hname]
  · rintro hempty
    obtain rfl : before = [] := by simpa using hempty
    exact hfront (by simp [hname])

theorem referenced?_reference (hmap : map ≠ "") (hdot : '.' ∉ map.toList) (helement : element ≠ "") :
    s.referenced? (reference map element) = (s.maps.get? map).bind (·.element? element) := by
  rw [referenced?, splitReference?_reference hmap hdot helement]
  rfl

/-- What a target comes to, when it is looked for in a map first. -/
theorem resolve_eq (s : Selectors) (target : String) :
    s.resolve target =
      (((s.referenced? target).or (s.inDefault? target)).map Locator.candidates).getD [target] := by
  unfold resolve
  cases s.referenced? target with
  | some l => rfl
  | none => cases s.inDefault? target <;> rfl

end Selectors

/-- Every element of a map whose name has no dot is what the reference to it stands for, with any default
map. Of a map with a dot in its name, though not in front, this is so only by chance: the reference stands
for another element, of the map that is named by the text before the dot, or else for whatever the whole
of it names in the default map, or for itself. -/
theorem elements_referred_to (maps : List UiMap) (default : Option String) {m : UiMap} {element : String}
    {l : Locator} (held : m ∈ (UiMapSet.ofList maps).maps) (named : m.name ≠ "")
    (front : m.name.toList.head? ≠ some '.') (nonempty : element ≠ "") (found : m.element? element = some l) :
    let s : Selectors := ⟨.ofList maps, default⟩
    ('.' ∉ m.name.toList → s.resolve (reference m.name element) = l.primary :: l.fallbacks) ∧
    ('.' ∈ m.name.toList → ∃ before after, m.name = reference before after ∧ '.' ∉ before.toList ∧
      s.resolve (reference m.name element) =
        ((((s.maps.get? before).bind (·.element? (reference after element))).or
          (s.inDefault? (reference m.name element))).map Locator.candidates).getD
            [reference m.name element]) := by
  intro s
  constructor
  · intro hdot
    have hget := (UiMapSet.keyed_ofList maps).get?_eq_some_iff.mpr ⟨held, rfl⟩
    have hreferenced : s.referenced? (reference m.name element) = some l := by
      rw [Selectors.referenced?_reference named hdot nonempty, hget]
      exact found
    rw [s.resolve_eq, hreferenced]
    rfl
  · intro hdot
    obtain ⟨before, after, hname, hnot, hbefore⟩ := Selectors.exists_first_dot hdot front
    refine ⟨before, after, hname, hnot, ?_⟩
    have hrest : reference after element ≠ "" := by simp [reference, String.append_eq_empty_iff]
    -- The dot in front of the element is one of the rest of the text.
    have hsplit : reference m.name element = reference before (reference after element) := by
      rw [hname]
      simp [reference, String.append_assoc]
    rw [s.resolve_eq, hsplit, Selectors.referenced?_reference hbefore hnot hrest]

/-- A map with an element whose own name has dots, and one whose name goes on where the other's ends. -/
def shopMaps : List UiMap :=
  [⟨none, "shop", none, [("login.user", ⟨"#user", ["[name=user]", "input"], none⟩)]⟩,
    ⟨none, "shop.login", none, [("user", ⟨"#other", [], none⟩)]⟩]

theorem elements_referred_to_shop :
    ∃ m ∈ (UiMapSet.ofList shopMaps).maps, m.name ≠ "" ∧ m.name.toList.head? ≠ some '.' ∧
      m.element? "login.user" = some ⟨"#user", ["[name=user]", "input"], none⟩ ∧
      (Selectors.mk (.ofList shopMaps) (some "shop.login")).resolve "shop.login.user" =
        ["#user", "[name=user]", "input"] := by
  have hfound : (shopMaps.head (by decide)).element? "login.user" =
      some ⟨"#user", ["[name=user]", "input"], none⟩ := rfl
  obtain ⟨hreferred, -⟩ := elements_referred_to shopMaps (some "shop.login")
    (m := shopMaps.head (by decide)) (by decide) (by decide) (by decide) (by decide) hfound
  exact ⟨shopMaps.head (by decide), by decide, by decide, by decide, hfound, hreferred (by decide)⟩

/-- It is not so that every element can be referred to: with a dot in the name of its map, the reference
may stand for itself. -/
theorem not_elements_referred_to :
    ¬∀ (maps : List UiMap) (default : Option String) (m : UiMap) (element : String) (l : Locator),
      m ∈ (UiMapSet.ofList maps).maps → m.name ≠ "" → m.name.toList.head? ≠ some '.' → element ≠ "" →
      m.element? element = some l →
      (Selectors.mk (.ofList maps) default).resolve (m.name ++ "." ++ element) = l.primary :: l.fallbacks := by
  intro referred
  let m : UiMap := ⟨none, "shop.login", none, [("user", ⟨"#user", [], none⟩)]⟩
  have hfound := referred [m] none m "user" ⟨"#user", [], none⟩ (by decide) (by decide) (by decide)
    (by decide) rfl
  exact absurd hfound (by decide)

end Rehearsal
