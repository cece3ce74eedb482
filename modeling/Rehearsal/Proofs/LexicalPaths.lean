import Mathlib.Logic.Relation
import Rehearsal.Disk.Path

/-! # The lexical normal form of a path

A path is made shorter without a look at the disk: what lies between two slashes goes when it is empty
or a dot, two dots go with the name before them, and at the root they go alone. Whatever is done first,
one form is left in the end, and it is the one that is read in a single pass.
-/
namespace Rehearsal.Disk.Path

open Relation (ReflTransGen)

/-- What stands between the slashes of a path, empty texts included. -/
def segments (p : Path) : List String := (Text.splitOn '/' p.toList).map String.ofList

/-- A name that stands for something below the place it is at. -/
def Proper (name : String) : Prop := name ≠ "" ∧ name ≠ "." ∧ name ≠ ".."

/-- One step on the way to the normal form of an absolute path. -/
inductive Shortens : List String → List String → Prop
  | empty (before after : List String) : Shortens (before ++ "" :: after) (before ++ after)
  | here (before after : List String) : Shortens (before ++ "." :: after) (before ++ after)
  | up (before : List String) {name : String} (proper : Proper name) (after : List String) :
    Shortens (before ++ name :: ".." :: after) (before ++ after)
  | root (after : List String) : Shortens (".." :: after) after

/-- The path comes down to these names, and there is nothing more to shorten. -/
structure NormalForm (p : Path) (names : List String) : Prop where
  reached : ReflTransGen Shortens (segments p) names
  proper : ∀ name ∈ names, Proper name

/-- The names on the way to a place, the last one first, after one more name is read. -/
def enter (read : List String) (name : String) : List String :=
  if name = "." then read else if name = ".." then read.drop 1 else name :: read

theorem lexical_eq (names : List String) : lexical names = (names.foldl enter []).reverse := rfl

theorem enter_dot (read : List String) : enter read "." = read := rfl

theorem enter_up (read : List String) : enter read ".." = read.drop 1 := rfl

theorem enter_of_proper {name : String} (h : Proper name) (read : List String) :
    enter read name = name :: read := by
  rw [enter, if_neg h.2.1, if_neg h.2.2]

/-- What is read of some segments, from what was read before on. -/
def reading (read segments : List String) : List String :=
  (segments.filter (· ≠ "")).foldl enter read

theorem reading_append (read before after : List String) :
    reading read (before ++ after) = reading (reading read before) after := by
  rw [reading, List.filter_append, List.foldl_append]
  rfl

theorem reading_empty (read after : List String) : reading read ("" :: after) = reading read after := by
  simp [reading]

theorem reading_cons {name : String} (h : name ≠ "") (read after : List String) :
    reading read (name :: after) = reading (enter read name) after := by
  rw [reading, List.filter_cons_of_pos (by simpa using h), List.foldl_cons]
  rfl

theorem names_eq (p : Path) : names p = (segments p).filter (· ≠ "") := by
  rw [names, segments, List.filter_map]
  congr 1
  apply List.filter_congr
  intro cs _
  by_cases h : cs = []
  · simp [h]
  · simp [h]

theorem lexical_names (p : Path) : lexical (names p) = (reading [] (segments p)).reverse := by
  rw [lexical_eq, names_eq, reading]

/-- No step changes what is read. -/
theorem reading_of_shortens {before after : List String} (h : Shortens before after) :
    reading [] before = reading [] after := by
  cases h with
  | empty first rest => rw [reading_append, reading_append, reading_empty]
  | here first rest => rw [reading_append, reading_append, reading_cons (by decide), enter_dot]
  | up first proper rest =>
    rw [reading_append, reading_append, reading_cons proper.1, reading_cons (by decide),
      enter_of_proper proper, enter_up, List.drop_one, List.tail_cons]
  | root => rw [reading_cons (by decide), enter_up, List.drop_nil]

/-- Proper names are read one by one. -/
theorem reading_of_proper {names : List String} (h : ∀ name ∈ names, Proper name) (read : List String) :
    reading read names = names.reverse ++ read := by
  induction names generalizing read with
  | nil => rfl
  | cons name rest ih =>
    have hname := h name List.mem_cons_self
    rw [reading_cons hname.1, enter_of_proper hname,
      ih fun other hother => h other (List.mem_cons_of_mem _ hother)]
    simp

/-- What is read is proper, so a `..` takes away a name or stands at the root. -/
theorem shortens_reading (rest : List String) {read : List String} (h : ∀ name ∈ read, Proper name) :
    ReflTransGen Shortens (read.reverse ++ rest) (reading read rest).reverse ∧
      ∀ name ∈ reading read rest, Proper name := by
  induction rest generalizing read with
  | nil => exact ⟨by rw [List.append_nil]; exact .refl, h⟩
  | cons name rest ih =>
    by_cases hempty : name = ""
    · subst hempty
      obtain ⟨reached, proper⟩ := ih h
      rw [reading_empty]
      exact ⟨.head (.empty read.reverse rest) reached, proper⟩
    rw [reading_cons hempty]
    by_cases hdot : name = "."
    · subst hdot
      obtain ⟨reached, proper⟩ := ih h
      rw [enter_dot]
      exact ⟨.head (.here read.reverse rest) reached, proper⟩
    by_cases hup : name = ".."
    · subst hup
      rw [enter_up, List.drop_one]
      cases read with
      | nil =>
        obtain ⟨reached, proper⟩ := ih h
        exact ⟨.head (.root rest) reached, proper⟩
      | cons last before =>
        have hlast := h last List.mem_cons_self
        obtain ⟨reached, proper⟩ := ih fun other hother => h other (List.mem_cons_of_mem _ hother)
        rw [List.reverse_cons, List.append_assoc]
        exact ⟨.head (.up before.reverse hlast rest) reached, proper⟩
    · have hname : Proper name := ⟨hempty, hdot, hup⟩
      have hread : ∀ other ∈ name :: read, Proper other := List.forall_mem_cons.2 ⟨hname, h⟩
      obtain ⟨reached, proper⟩ := ih hread
      rw [List.reverse_cons, List.append_assoc] at reached
      rw [enter_of_proper hname]
      exact ⟨reached, proper⟩

theorem normalForm_lexical (p : Path) : NormalForm p (lexical (names p)) := by
  have hnone : ∀ name ∈ ([] : List String), Proper name := List.forall_mem_nil _
  obtain ⟨reached, proper⟩ := shortens_reading (segments p) hnone
  rw [lexical_names]
  exact ⟨reached, by simpa using proper⟩

/-- A path has one normal form. -/
theorem NormalForm.eq_lexical {p : Path} {ns : List String} (h : NormalForm p ns) :
    ns = lexical (names p) := by
  obtain ⟨reached, proper⟩ := h
  have hread : reading [] (segments p) = reading [] ns := by
    clear proper
    induction reached with
    | refl => rfl
    | tail _ step ih => exact ih.trans (reading_of_shortens step)
  rw [lexical_names, hread, reading_of_proper proper]
  simp

/-- A dot in front of a name, names that lead up again and one that leads above the root. -/
example : lexical (names "/a/./b/../../../c//d") = ["c", "d"] := by decide

theorem mem_of_mem_foldl_enter {name : String} (rest read : List String)
    (h : name ∈ rest.foldl enter read) : name ∈ read ∨ name ∈ rest := by
  induction rest generalizing read with
  | nil => exact .inl h
  | cons first rest ih =>
    obtain hread | hrest := ih (enter read first) h
    · unfold enter at hread
      split at hread
      · exact .inl hread
      split at hread
      · exact .inl (List.mem_of_mem_drop hread)
      · obtain rfl | hread := List.mem_cons.1 hread
        · exact .inr List.mem_cons_self
        · exact .inl hread
    · exact .inr (List.mem_cons_of_mem _ hrest)

/-- The names of a normal form stood in the path, between slashes. -/
theorem not_mem_of_mem_lexical {p : Path} {name : String} (h : name ∈ lexical (names p)) :
    '/' ∉ name.toList := by
  rw [lexical_eq, List.mem_reverse] at h
  have hname : name ∈ names p := (mem_of_mem_foldl_enter (names p) [] h).resolve_left List.not_mem_nil
  rw [names, List.mem_map] at hname
  obtain ⟨cs, hcs, rfl⟩ := hname
  rw [String.toList_ofList]
  exact Text.not_mem_of_mem_splitOn (List.mem_filter.1 hcs).1

end Rehearsal.Disk.Path
