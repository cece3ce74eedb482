import Mathlib.Data.List.Induction
import Mathlib.Data.List.Nodup
import Rehearsal.Page.UiMap

/-! # Maps by their names

A set holds one map for each name, the one that was added last. So two sets with the same maps, in
whatever order they are gone through, tell the same by every name.
-/
namespace Rehearsal.UiMapSet

variable {s s' : UiMapSet} {m : UiMap} {maps : List UiMap} {name : String}

/-- No two maps of the set have one name. -/
def Keyed (s : UiMapSet) : Prop := (s.maps.map UiMap.name).Nodup

/-- The same maps, gone through in whatever order. -/
def Alike (s s' : UiMapSet) : Prop := s.maps.Perm s'.maps

theorem names_insertIn (m : UiMap) (maps : List UiMap) :
    (insertIn m maps).map UiMap.name =
      if m.name ∈ maps.map UiMap.name then maps.map UiMap.name else maps.map UiMap.name ++ [m.name] := by
  induction maps with
  | nil => rfl
  | cons n rest ih =>
    by_cases hn : n.name = m.name
    · simp [insertIn, hn]
    · rw [insertIn, if_neg hn, List.map_cons, ih]
      by_cases hrest : m.name ∈ rest.map UiMap.name
      · rw [if_pos hrest, if_pos (by simp [hrest])]
        rfl
      · rw [if_neg hrest, if_neg (by simpa [Ne.symm hn] using hrest)]
        rfl

theorem Keyed.insert (h : s.Keyed) (m : UiMap) : (s.insert m).Keyed := by
  unfold Keyed UiMapSet.insert at *
  rw [names_insertIn]
  split
  · exact h
  · next hnew => exact h.append (List.nodup_singleton _) (by simpa using hnew)

theorem get?_insert (s : UiMapSet) (m : UiMap) (name : String) :
    (s.insert m).get? name = if m.name = name then some m else s.get? name := by
  unfold UiMapSet.insert get?
  induction s.maps with
  | nil => by_cases hm : m.name = name <;> simp [insertIn, hm]
  | cons n rest ih =>
    by_cases hn : n.name = m.name
    · by_cases hm : m.name = name <;> simp [insertIn, hn, hm]
    · rw [insertIn, if_neg hn, List.find?_cons, ih, List.find?_cons]
      by_cases hname : n.name = name
      · have hm : ¬ m.name = name := fun hm => hn (hname.trans hm.symm)
        simp [hname, hm]
      · have hfirst : (n.name == name) = false := by simpa using hname
        simp [hfirst]

theorem ofList_concat (maps : List UiMap) (m : UiMap) : ofList (maps ++ [m]) = (ofList maps).insert m :=
  List.foldl_concat ..

theorem keyed_ofList (maps : List UiMap) : (ofList maps).Keyed := by
  induction maps using List.reverseRecOn with
  | nil => exact List.nodup_nil
  | append_singleton maps m ih =>
    rw [ofList_concat]
    exact ih.insert m

/-- Of the maps with a name the last one added is in the set. -/
theorem get?_ofList (maps : List UiMap) (name : String) :
    (ofList maps).get? name = maps.reverse.find? (·.name == name) := by
  induction maps using List.reverseRecOn with
  | nil => rfl
  | append_singleton maps m ih =>
    rw [ofList_concat, get?_insert, ih, List.reverse_concat]
    by_cases hm : m.name = name
    · simp [hm]
    · have hlast : (m.name == name) = false := by simpa using hm
      simp [hm, hlast]

theorem Keyed.get?_eq_some_iff (h : s.Keyed) : s.get? name = some m ↔ m ∈ s.maps ∧ m.name = name := by
  constructor
  · intro hfound
    exact ⟨List.mem_of_find?_eq_some hfound, by simpa using List.find?_some hfound⟩
  · rintro ⟨hmem, rfl⟩
    obtain ⟨n, hn⟩ : ∃ n, s.get? m.name = some n :=
      Option.isSome_iff_exists.mp (List.find?_isSome.mpr ⟨m, hmem, by simp⟩)
    have hname : n.name = m.name := by simpa using List.find?_some hn
    rw [hn, List.inj_on_of_nodup_map h (List.mem_of_find?_eq_some hn) hmem hname]

theorem Alike.symm (h : s.Alike s') : s'.Alike s := List.Perm.symm h

theorem Alike.keyed (h : s.Alike s') (keyed : s'.Keyed) : s.Keyed :=
  (List.Perm.nodup_iff (h.map UiMap.name)).mpr keyed

/-- Sets with one map for each name hold the same maps if they tell the same by each name. -/
theorem Keyed.alike_iff (h : s.Keyed) (h' : s'.Keyed) : s.Alike s' ↔ ∀ name, s.get? name = s'.get? name := by
  constructor
  · intro alike name
    apply Option.ext
    intro m
    rw [h.get?_eq_some_iff, h'.get?_eq_some_iff, alike.mem_iff]
  · intro same
    apply (List.perm_ext_iff_of_nodup (List.Nodup.of_map _ h) (List.Nodup.of_map _ h')).mpr
    intro m
    have hmem : s.get? m.name = some m ↔ m ∈ s.maps ∧ m.name = m.name := h.get?_eq_some_iff
    rw [same, h'.get?_eq_some_iff] at hmem
    simpa using hmem.symm

end Rehearsal.UiMapSet
