import Rehearsal.Proofs.References
import Rehearsal.Proofs.Searching

/-! # What a search finds

The path of a search is a way through the graph of references, and what is done with is clear: a
scenario is done with once all that it refers to is. This goes through as long as every scenario is
loaded under its own identifier.
-/
namespace Rehearsal.Preflight

variable {load : Load} {root : Scenario}

/-- The path of a search: a way from the rehearsed scenario to the one whose references are looked
at, which meets nothing twice. -/
structure Trail (load : Load) (root : Scenario) (path : List String) (last : String) : Prop where
  ends : path.getLast? = some last
  fromRoot : path.head? = some root.id
  linked : path.IsChain (Refers load root)
  distinct : path.Nodup
  loaded : ∀ id ∈ path.tail, ∃ s, (load id).1 = .ok (some s)

namespace Trail

variable {path : List String} {last : String}

theorem start : Trail load root [root.id] root.id where
  ends := rfl
  fromRoot := rfl
  linked := .singleton _
  distinct := List.nodup_singleton _
  loaded := by simp

theorem ne_nil (h : Trail load root path last) : path ≠ [] := by
  intro hnil
  simpa [hnil] using h.fromRoot

theorem mem_root (h : Trail load root path last) : root.id ∈ path :=
  List.mem_of_mem_head? h.fromRoot

theorem linked_append (h : Trail load root path last) {next : String}
    (href : Refers load root last next) : (path ++ [next]).IsChain (Refers load root) := by
  refine h.linked.append (.singleton _) ?_
  intro a ha b hb
  rw [h.ends] at ha
  cases ha
  cases hb
  exact href

theorem head?_append (h : Trail load root path last) (ids : List String) :
    (path ++ ids).head? = some root.id := by
  rw [List.head?_append_of_ne_nil _ h.ne_nil, h.fromRoot]

theorem append (h : Trail load root path last) {next : String} {s : Scenario}
    (href : Refers load root last next) (hoff : next ∉ path)
    (hload : (load next).1 = .ok (some s)) : Trail load root (path ++ [next]) next where
  ends := by simp
  fromRoot := h.head?_append _
  linked := h.linked_append href
  distinct := by
    refine h.distinct.append (List.nodup_singleton _) ?_
    simpa [List.disjoint_singleton] using hoff
  loaded := by
    intro id hid
    rw [List.tail_append_of_ne_nil h.ne_nil, List.mem_append, List.mem_singleton] at hid
    rcases hid with hid | rfl
    · exact h.loaded id hid
    · exact ⟨s, hload⟩

theorem isCircle (h : Trail load root path last) {next : String}
    (href : Refers load root last next) (hon : next ∈ path) :
    IsCircle load root (path ++ [next]) where
  fromRoot := h.head?_append _
  linked := h.linked_append href
  closed := ⟨path, next, rfl, hon⟩

theorem last_mem (h : Trail load root path last) : last ∈ path := List.mem_of_getLast? h.ends

theorem reaches (h : Trail load root path last) :
    Relation.ReflTransGen (Refers load root) root.id last := by
  obtain ⟨before, hpath⟩ := List.getLast?_eq_some_iff.mp h.ends
  subst hpath
  cases before with
  | nil =>
    have hlast : last = root.id := by simpa using h.fromRoot
    rw [hlast]
  | cons first rest =>
    have hfirst : first = root.id := by simpa using h.fromRoot
    subst hfirst
    exact (transGen_of_isChain h.linked (List.mem_cons_self ..)).to_reflTransGen

theorem loads_last (h : Trail load root path last) : last = root.id ∨ Loads load last := by
  cases path with
  | nil => exact absurd rfl h.ne_nil
  | cons first rest =>
    have hfirst : first = root.id := by simpa using h.fromRoot
    rcases List.mem_cons.mp h.last_mem with hlast | hlast
    · exact .inl (hlast.trans hfirst)
    · obtain ⟨s, hs⟩ := h.loaded last hlast
      exact .inr ⟨some s, hs⟩

end Trail

/-- What holds of a search wherever it is: all that is done with is clear, nothing was asked twice, and
what was asked is done with or on the path. -/
structure Sound (load : Load) (root : Scenario) (path : List String) (s : Search) : Prop where
  clear : ∀ id ∈ s.finished, Clear load root id
  once : s.asked.Nodup
  settled : ∀ id ∈ s.asked, id ∈ s.finished ∨ id ∈ path

/-- A failure that a search may be refused with: a circle, or what something reached failed to load
with. -/
def Refusal (load : Load) (root : Scenario) (e : Failure) : Prop :=
  (∃ chain, e = .cyclicReference chain ∧ IsCircle load root chain) ∨
    ∃ id, Relation.TransGen (Refers load root) root.id id ∧ (load id).1 = .error e

/-- There are that many different identifiers under which a scenario is loaded. -/
def ManyLoaded (load : Load) (n : Nat) : Prop :=
  ∃ ids : List String, ids.Nodup ∧ ids.length = n ∧ ∀ id ∈ ids, ∃ s, (load id).1 = .ok (some s)

/-- What a search below a path comes back with, when it may go that much deeper. -/
def Met (load : Load) (root : Scenario) (extra : Nat) (path : List String) (last : String)
    (s : Search) : Verdict × Search → Prop
  | (.clear, t) => Sound load root path t ∧ last ∈ t.finished ∧ s.finished ⊆ t.finished
  | (.refused e, t) => t.asked.Nodup ∧ Refusal load root e
  | (.unfinished, t) => t.asked.Nodup ∧ ManyLoaded load (path.tail.length + extra)

namespace Sound

variable {path : List String} {s : Search}

theorem empty : Sound load root path .empty where
  clear := by simp [Search.empty]
  once := List.nodup_nil
  settled := by simp [Search.empty]

theorem say (h : Sound load root path s) (lines : List LogLine) : Sound load root path (s.say lines) :=
  ⟨h.clear, h.once, h.settled⟩

theorem not_asked (h : Sound load root path s) {next : String} (hoff : next ∉ path)
    (hopen : next ∉ s.finished) : next ∉ s.asked := by
  intro hasked
  rcases h.settled next hasked with hdone | hon
  · exact hopen hdone
  · exact hoff hon

theorem nodup_ask (h : Sound load root path s) {next : String} (hoff : next ∉ path)
    (hopen : next ∉ s.finished) : (s.ask next).asked.Nodup := by
  refine h.once.append (List.nodup_singleton _) ?_
  simpa [List.disjoint_singleton] using h.not_asked hoff hopen

theorem finish (h : Sound load root path s) {id : String} (hid : Clear load root id) :
    Sound load root path (s.finish id) where
  clear := by
    intro a ha
    rcases List.mem_cons.mp ha with rfl | ha
    · exact hid
    · exact h.clear a ha
  once := h.once
  settled := by
    intro a ha
    rcases h.settled a ha with hdone | hon
    · exact .inl (List.mem_cons_of_mem _ hdone)
    · exact .inr hon

theorem ask (h : Sound load root path s) {next : String} (hoff : next ∉ path)
    (hopen : next ∉ s.finished) : Sound load root (path ++ [next]) (s.ask next) where
  clear := h.clear
  once := h.nodup_ask hoff hopen
  settled := by
    intro a ha
    rw [Search.asked_ask, List.mem_append] at ha
    rcases ha with ha | ha
    · rcases h.settled a ha with hdone | hon
      · exact .inl hdone
      · exact .inr (List.mem_append_left _ hon)
    · exact .inr (List.mem_append_right _ ha)

theorem leave {next : String} (h : Sound load root (path ++ [next]) s) (hdone : next ∈ s.finished) :
    Sound load root path s where
  clear := h.clear
  once := h.once
  settled := by
    intro a ha
    rcases h.settled a ha with ha | hon
    · exact .inl ha
    · rcases List.mem_append.mp hon with hon | hlast
      · exact .inr hon
      · rw [List.mem_singleton.mp hlast]
        exact .inl hdone

theorem absent (h : Sound load root path s) {next : String} (hoff : next ∉ path)
    (hopen : next ∉ s.finished) (hclear : Clear load root next) (lines : List LogLine) :
    Sound load root path ((((s.ask next).say lines).say [missing next]).finish next) :=
  ((((h.ask hoff hopen).say lines).say [missing next]).finish hclear).leave (List.mem_cons_self ..)

end Sound

theorem clear_of_absent {id : String} (hid : id ≠ root.id) (h : (load id).1 = .ok none) :
    Clear load root id := by
  refine .intro (.inr ⟨none, h⟩) ?_
  rintro b ⟨s, hs, -⟩
  simp [scenarioAt?, hid, h] at hs

/-- What the scenario refers to is done with or among the references still to be looked at. -/
def Pending (load : Load) (root : Scenario) (last : String) (s : Search) (refs : List String) : Prop :=
  ∀ b, Refers load root last b → b ∈ s.finished ∨ b ∈ refs

theorem Pending.passed {last next : String} {rest : List String} {s t : Search}
    (h : Pending load root last s (next :: rest)) (hst : s.finished ⊆ t.finished)
    (hnext : next ∈ t.finished) : Pending load root last t rest := by
  intro b hb
  rcases h b hb with hb | hb
  · exact .inl (hst hb)
  · rcases List.mem_cons.mp hb with rfl | hb
    · exact .inl hnext
    · exact .inr hb

theorem Pending.clear {path : List String} {last : String} {s : Search}
    (h : Pending load root last s []) (ht : Trail load root path last) (hs : Sound load root path s) :
    Clear load root last := by
  refine .intro ht.loads_last ?_
  intro b hb
  rcases h b hb with hb | hb
  · exact hs.clear b hb
  · cases hb

theorem Met.mono {extra : Nat} {path : List String} {last : String} {s t : Search}
    {r : Verdict × Search} (h : Met load root extra path last t r) (hst : s.finished ⊆ t.finished) :
    Met load root extra path last s r := by
  obtain ⟨v, u⟩ := r
  cases v with
  | clear => exact ⟨h.1, h.2.1, List.Subset.trans hst h.2.2⟩
  | refused e => exact h
  | unfinished => exact h

/-- If what is searched deeper comes back as it should, so does a scan. -/
theorem scan_met {deeper : List String → Search → List String → Verdict × Search} {extra : Nat}
    (own : OwnNames load)
    (hdeep : ∀ {path last s scenario}, Trail load root path last → Sound load root path s →
      scenarioAt? load root last = some scenario →
      Met load root extra path last s (deeper path s scenario.references))
    {path : List String} {last : String} (ht : Trail load root path last) {s : Search}
    {refs : List String} (hs : Sound load root path s) (hrefs : ∀ b ∈ refs, Refers load root last b)
    (hpending : Pending load root last s refs) :
    Met load root (extra + 1) path last s (scan load deeper path s refs) := by
  induction refs generalizing s with
  | nil =>
    have hlast : path.getLastD "" = last := by simp [List.getLastD_eq_getLast?, ht.ends]
    rw [scan, hlast]
    exact ⟨hs.finish (hpending.clear ht hs), List.mem_cons_self .., List.subset_cons_self ..⟩
  | cons next rest ih =>
    have href := hrefs next (List.mem_cons_self ..)
    have hrest : ∀ b ∈ rest, Refers load root last b := fun b hb => hrefs b (List.mem_cons_of_mem _ hb)
    have hl := looked load path s next
    generalize hlook : look load path s next = l at hl
    cases hl with
    | circle onPath =>
      rw [scan_refused hlook]
      exact ⟨hs.once, .inl ⟨_, rfl, ht.isCircle href onPath⟩⟩
    | known offPath done =>
      rw [scan_passed hlook]
      exact ih hs hrest (hpending.passed (List.Subset.refl _) done)
    | failed offPath open_ answer =>
      rw [scan_refused hlook]
      refine ⟨hs.nodup_ask offPath open_, .inr ⟨next, ?_, by rw [answer]⟩⟩
      exact Relation.TransGen.tail' ht.reaches href
    | absent offPath open_ answer =>
      have hid : next ≠ root.id := fun h => offPath (h ▸ ht.mem_root)
      have hclear : Clear load root next := clear_of_absent hid (by rw [answer])
      have hsub := List.subset_cons_self next s.finished
      rw [scan_passed hlook]
      exact (ih (hs.absent offPath open_ hclear _) hrest
        (hpending.passed hsub (List.mem_cons_self ..))).mono hsub
    | entered offPath open_ answer =>
      rename_i scenario lines
      have hload : (load next).1 = .ok (some scenario) := by rw [answer]
      have hid : next ≠ root.id := fun h => offPath (h ▸ ht.mem_root)
      have hmet := hdeep (ht.append href offPath hload)
        (((hs.ask offPath open_).say lines).say [found scenario]) (scenarioAt?_of_load hid hload)
      -- The path is extended by the name of the scenario, which is the identifier asked for.
      rw [scan_entered hlook, own hload]
      generalize deeper (path ++ [next]) _ scenario.references = r at hmet ⊢
      obtain ⟨v, t⟩ := r
      cases v with
      | clear =>
        obtain ⟨hsound, hdone, hsub⟩ := hmet
        exact (ih (hsound.leave hdone) hrest (hpending.passed hsub hdone)).mono hsub
      | refused e => exact hmet
      | unfinished =>
        -- The path below was longer by one, and what is left of the limit shorter by one.
        obtain ⟨honce, hmany⟩ := hmet
        refine ⟨honce, ?_⟩
        rw [List.tail_append_of_ne_nil ht.ne_nil, List.length_append, List.length_singleton] at hmany
        rwa [show path.tail.length + (extra + 1) = path.tail.length + 1 + extra by omega]

/-- Whatever the limit, a search comes back as it should. -/
theorem visit_met (own : OwnNames load) (depth : Nat) {path : List String} {last : String}
    {s : Search} {scenario : Scenario} (ht : Trail load root path last) (hs : Sound load root path s)
    (hlast : scenarioAt? load root last = some scenario) :
    Met load root (depth + 1) path last s (visit load depth path s scenario.references) := by
  induction depth generalizing path last s scenario with
  | zero =>
    refine scan_met own ?_ ht hs (fun b hb => (refers_iff_mem hlast).mpr hb)
      (fun b hb => .inr ((refers_iff_mem hlast).mp hb))
    intro path last s scenario ht hs _
    exact ⟨hs.once, path.tail, ht.distinct.tail, rfl, ht.loaded⟩
  | succ depth ih =>
    exact scan_met own ih ht hs (fun b hb => (refers_iff_mem hlast).mpr hb)
      (fun b hb => .inr ((refers_iff_mem hlast).mp hb))

theorem search_met (own : OwnNames load) (root : Scenario) (depth : Nat) :
    Met load root (depth + 1) [root.id] root.id .empty (search depth load root) :=
  visit_met own depth .start .empty scenarioAt?_root

theorem ManyLoaded.le {ids : List String} {n : Nat} (h : ManyLoaded load n)
    (listed : ∀ {id s}, (load id).1 = .ok (some s) → id ∈ ids) : n ≤ ids.length := by
  obtain ⟨loaded, hnodup, hlength, hloaded⟩ := h
  have hsub : loaded ⊆ ids := by
    intro id hid
    obtain ⟨s, hs⟩ := hloaded id hid
    exact listed hs
  have hle := (List.subperm_of_subset hnodup hsub).length_le
  omega

section Source

variable (source : ScenarioSource) (desk : Desk) (root : Scenario)

theorem length_le_depthLimit (n : Nat) : n ≤ depthLimit n := by
  calc
    n ≤ n + 1 := Nat.le_succ n
    _ ≤ (n + 1) * (2 * n + 4) := Nat.le_mul_of_pos_right _ (by omega)

/-- A path can be no longer than there are scenarios. -/
theorem search_finished (own : OwnNames (source.load desk)) {depth : Nat}
    (hdepth : (source.ids desk).length ≤ depth) :
    (search depth (source.load desk) root).1 ≠ .unfinished := by
  intro hunfinished
  have hmet := search_met own root depth
  generalize search depth (source.load desk) root = r at hunfinished hmet
  obtain ⟨v, t⟩ := r
  cases hunfinished
  have hle := hmet.2.le source.listed
  simp only [List.tail_cons, List.length_nil] at hle
  omega

theorem asked_nodup (own : OwnNames (source.load desk)) (depth : Nat) :
    (search depth (source.load desk) root).2.asked.Nodup := by
  have hmet := search_met own root depth
  generalize search depth (source.load desk) root = r at hmet
  obtain ⟨v, t⟩ := r
  cases v with
  | clear => exact hmet.1.once
  | refused e => exact hmet.1
  | unfinished => exact hmet.1

theorem refusal_of_check (own : OwnNames (source.load desk)) {e : Failure}
    (h : (check source desk root).1 = .error e) : Refusal (source.load desk) root e := by
  have hmet := search_met own root (depthLimit (source.ids desk).length)
  have hfinished := search_finished source desk root own
    (length_le_depthLimit (source.ids desk).length)
  unfold check at h
  generalize search (depthLimit (source.ids desk).length) (source.load desk) root = r
    at h hmet hfinished
  obtain ⟨v, t⟩ := r
  cases v with
  | clear => cases h
  | refused e' =>
    cases h
    exact hmet.2
  | unfinished => exact absurd rfl hfinished

theorem clear_of_check (own : OwnNames (source.load desk))
    (h : (check source desk root).1 = .ok ()) : Clear (source.load desk) root root.id := by
  have hmet := search_met own root (depthLimit (source.ids desk).length)
  unfold check at h
  generalize search (depthLimit (source.ids desk).length) (source.load desk) root = r at h hmet
  obtain ⟨v, t⟩ := r
  cases v with
  | clear => exact hmet.1.clear _ hmet.2.1
  | refused e => cases h
  | unfinished => cases h

theorem check_of_acyclic (own : OwnNames (source.load desk))
    (hacyclic : Acyclic (source.load desk) root)
    (hloads : ∀ id, Relation.TransGen (Refers (source.load desk) root) root.id id →
      Loads (source.load desk) id) : (check source desk root).1 = .ok () := by
  cases h : (check source desk root).1 with
  | ok u => rfl
  | error e =>
    rcases refusal_of_check source desk root own h with ⟨chain, -, hcircle⟩ | ⟨id, hreach, he⟩
    · exact absurd hacyclic hcircle.not_acyclic
    · obtain ⟨found, hfound⟩ := hloads id hreach
      rw [hfound] at he
      cases he

/-- Where every scenario goes by its own name, a rehearsal comes to its end and asks for nothing twice;
it refuses what goes in circles and what cannot be loaded, and nothing else. -/
theorem check_exact (own : OwnNames (source.load desk)) :
    (∀ depth, (source.ids desk).length ≤ depth →
      (search depth (source.load desk) root).1 ≠ .unfinished ∧
      search depth (source.load desk) root =
        search (depthLimit (source.ids desk).length) (source.load desk) root) ∧
    (search (depthLimit (source.ids desk).length) (source.load desk) root).2.asked.Nodup ∧
    (∀ chain, (check source desk root).1 = .error (.cyclicReference chain) →
      IsCircle (source.load desk) root chain ∨
        ∃ id, Relation.TransGen (Refers (source.load desk) root) root.id id ∧
          (source.load desk id).1 = .error (.cyclicReference chain)) ∧
    (∀ e, (check source desk root).1 = .error e → (∀ chain, e ≠ .cyclicReference chain) →
      ∃ id, Relation.TransGen (Refers (source.load desk) root) root.id id ∧
        (source.load desk id).1 = .error e) ∧
    ((check source desk root).1 = .ok () ↔
      Acyclic (source.load desk) root ∧
        ∀ id, Relation.TransGen (Refers (source.load desk) root) root.id id →
          Loads (source.load desk) id) := by
  have hlimit := length_le_depthLimit (source.ids desk).length
  refine ⟨?_, asked_nodup source desk root own _, ?_, ?_, ?_, ?_⟩
  · intro depth hdepth
    have hend := search_finished source desk root own hdepth
    exact ⟨hend, visit_eq_of_finished hend (search_finished source desk root own hlimit)⟩
  · intro chain h
    rcases refusal_of_check source desk root own h with ⟨chain', he, hcircle⟩ | hload
    · cases he
      exact .inl hcircle
    · exact .inr hload
  · intro e h hother
    rcases refusal_of_check source desk root own h with ⟨chain, he, -⟩ | hload
    · exact absurd he (hother chain)
    · exact hload
  · intro h
    have hclear := clear_of_check source desk root own h
    exact ⟨hclear.acyclic, fun _ => hclear.loads_of_reaches⟩
  · rintro ⟨hacyclic, hloads⟩
    exact check_of_acyclic source desk root own hacyclic hloads

end Source

theorem ownNames_memory (scenarios : List Scenario) (desk : Desk) :
    OwnNames ((ScenarioSource.memory scenarios).load desk) := by
  intro id s h
  have hfound := Except.ok.inj h
  simpa using List.find?_some hfound

/-- A scenario that only has others played. -/
def referring (id : String) (ids : List String) : Scenario :=
  ⟨id, none, none, none, ids.map fun other => .ofInstruction (.runScenario other)⟩

def nowhere : Desk := .ofDisk ⟨[], []⟩

def sharing : List Scenario := [referring "a" ["c"], referring "b" ["c", "a", "c"], referring "c" []]

theorem check_exact_sharing :
    (check (.memory sharing) nowhere (referring "r" ["a", "b"])).1 = .ok () ∧
    Acyclic ((ScenarioSource.memory sharing).load nowhere) (referring "r" ["a", "b"]) ∧
    (search 3 ((ScenarioSource.memory sharing).load nowhere) (referring "r" ["a", "b"])).1 = .clear := by
  have h := check_exact (.memory sharing) nowhere (referring "r" ["a", "b"])
    (ownNames_memory sharing nowhere)
  have hok : (check (.memory sharing) nowhere (referring "r" ["a", "b"])).1 = .ok () := rfl
  exact ⟨hok, (h.2.2.2.2.mp hok).1, rfl⟩

end Rehearsal.Preflight
