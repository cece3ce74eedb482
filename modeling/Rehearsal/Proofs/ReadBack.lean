import Rehearsal.Proofs.FileChanges
import Rehearsal.Proofs.WrittenValues
import Rehearsal.Session.Basic
import Rehearsal.Run.Outcome
import Rehearsal.Scenario.StepDocument
import Rehearsal.Artifacts

/-! # Documents read back

What is written of a saved session, of a document of a step and of the record of a run is read as what
was written. The writers leave out some fields that are empty and write others as null, and the readers
have a value for each field that may be absent; both sides are compared field by field.
-/

namespace Rehearsal

namespace Json

open Value (toMembers)

variable {ms : List (String × Value)}

theorem Value.height_of_lookup {key : String} {v : Value} (h : ms.lookup key = some v) :
    v.height ≤ Value.membersHeight ms := by
  obtain ⟨before, after, rfl, -⟩ := List.lookup_eq_some_iff.1 h
  exact Value.membersHeight_le.1 (Nat.le_refl _) (key, v) (by simp)

/-- The keys of the members stand in the order of the fields, each once; a field may be left out. -/
def Ordered (ms : List (String × Value)) (fields : List String) : Prop :=
  (ms.map Prod.fst).Sublist fields

namespace Ordered

variable {fields : List String}

theorem nil : Ordered [] [] := .refl _

theorem always (h : Ordered ms fields) (key : String) (v : Value) :
    Ordered (ms ++ [(key, v)]) (fields ++ [key]) := by
  rw [Ordered, List.map_append]
  exact h.append (.refl _)

theorem maybe (h : Ordered ms fields) (key : String) (v : Option Value) :
    Ordered (ms ++ Value.member? key v) (fields ++ [key]) := by
  rw [Ordered, List.map_append]
  refine h.append ?_
  cases v <;> simp [Value.member?]

end Ordered

/-- The members given by an object of these members, all of them known. -/
def Members.of (ms : List (String × Value)) : Members := ⟨false, ms.map fun m => (m.1, m.2.toTree)⟩

namespace Members

variable {field : String} {α : Type} {read : Reading α}

theorem ofObject_toMembers {fields : List String} (hin : ∀ m ∈ ms, m.1 ∈ fields)
    (hnodup : (ms.map Prod.fst).Nodup) :
    ofObject fields (toMembers ms) = .ok (ms.map fun m => (m.1, m.2.toTree)) := by
  induction ms with
  | nil => rfl
  | cons m ms ih =>
    rw [List.map_cons, List.nodup_cons] at hnodup
    have hrest := ih (fun m hm => hin m (by simp [hm])) hnodup.2
    have hnone : (ms.map fun m => (m.1, m.2.toTree)).lookup m.1 = none := by
      rw [List.lookup_eq_none_iff]
      intro p hp
      obtain ⟨m', hm', rfl⟩ := List.mem_map.1 hp
      have hne : m.1 ≠ m'.1 := fun heq => hnodup.1 (heq ▸ List.mem_map_of_mem hm')
      simpa using hne
    have hknown : m.1 ∈ fields := hin m (by simp)
    simp [toMembers, ofObject, hrest, hnone, hknown, bind, Except.bind]

/-- An object of known members, each once, gives them. -/
theorem ofTree_known {fields : List String} {expected : String} (hin : ∀ m ∈ ms, m.1 ∈ fields)
    (hnodup : (ms.map Prod.fst).Nodup) : ofTree fields expected (Value.object ms).toTree = .ok (of ms) := by
  simp [Value.toTree, ofTree, ofObject_toMembers hin hnodup, of, Except.map]

/-- An object whose keys stand in the order of the fields, some perhaps left out, gives its members. -/
theorem ofTree_object {fields : List String} {expected : String} (hnodup : fields.Nodup)
    (h : Ordered ms fields) :
    ofTree fields expected (Value.object ms).toTree = .ok (of ms) := by
  have hin : ∀ m ∈ ms, m.1 ∈ fields := fun m hm => List.Sublist.subset h (List.mem_map_of_mem hm)
  exact ofTree_known hin (List.Sublist.nodup h hnodup)

theorem lookup_of (field : String) : (of ms).given.lookup field = (ms.lookup field).map Value.toTree := by
  rw [of]
  induction ms with
  | nil => rfl
  | cons m ms ih =>
    obtain ⟨k, v⟩ := m
    by_cases hk : field == k <;> simp [List.lookup_cons, hk, ih]

theorem required_of {v : Value} (h : ms.lookup field = some v) :
    (of ms).required field read = read v.toTree := by
  rw [required, lookup_of, h]
  rfl

theorem orElse_of {v : Value} {absent : α} (h : ms.lookup field = some v) :
    (of ms).orElse field absent read = read v.toTree := by
  rw [orElse, lookup_of, h]
  rfl

theorem orElse_of_none {absent : α} (h : ms.lookup field = none) :
    (of ms).orElse field absent read = .ok absent := by
  rw [orElse, lookup_of, h]
  rfl

variable {a : Option α} {f : α → Value}

theorem orNull_of_ok {t : Tree} {x : α} (hnull : t ≠ .null) (h : read t = .ok x) :
    Reading.orNull read t = .ok (some x) := by
  cases t <;> simp_all [Reading.orNull, Except.map]

/-- A field that is left out when there is nothing to write. -/
theorem optional_of (h : ms.lookup field = a.map f) (hnull : ∀ x, (f x).toTree ≠ .null)
    (hread : ∀ x ∈ a, read (f x).toTree = .ok x) : (of ms).optional field read = .ok a := by
  cases a with
  | none => rw [optional, orElse_of_none h]
  | some x => rw [optional, orElse_of h, orNull_of_ok (hnull x) (hread x rfl)]

/-- A field that is null when there is nothing to write. -/
theorem optional_of_orNull (h : ms.lookup field = some ((a.map f).getD .null))
    (hnull : ∀ x, (f x).toTree ≠ .null) (hread : ∀ x ∈ a, read (f x).toTree = .ok x) :
    (of ms).optional field read = .ok a := by
  rw [optional, orElse_of h]
  cases a with
  | none => rfl
  | some x => exact orNull_of_ok (hnull x) (hread x rfl)

end Members

/-! ## What one reader takes from what one writer writes -/

namespace Reading

theorem natural_ofNat {n limit : Nat} (h : n ≤ limit) (hword : n ≤ Text.wordMax) :
    natural limit (Value.ofNat n).toTree = .ok n := by
  have hnumber := Number.number?_numeralOf (n := .natural n) hword
  simp [Value.ofNat, Value.toTree, natural, hnumber, h]

theorem list_array {α : Type} {read : Reading α} {f : α → Value} {xs : List α}
    (h : ∀ x ∈ xs, read (f x).toTree = .ok x) : list read (Value.array (xs.map f)).toTree = .ok xs := by
  have hall : ∀ xs : List α, (∀ x ∈ xs, read (f x).toTree = .ok x) →
      (Value.toTrees (xs.map f)).mapM read = .ok xs := by
    intro xs
    induction xs with
    | nil => exact fun _ => rfl
    | cons x xs ih =>
      intro h
      have hx := h x (by simp)
      have hxs := ih fun x hx => h x (by simp [hx])
      simp [Value.toTrees, hx, hxs, bind, Except.bind, pure, Except.pure]
  simpa [Value.toTree, list] using hall xs h

end Reading

theorem Value.lookup_member? (key field : String) (v : Option Value) :
    (Value.member? key v).lookup field = if field = key then v else none := by
  rcases v with _ | v
  · simp [member?]
  · by_cases h : field = key
    · simp [member?, h]
    · have hne : (field == key) = false := by simpa using h
      simp [member?, List.lookup_cons, h, hne]

namespace Members

variable {field : String}

theorem optional_string {s : Option String} (h : ms.lookup field = s.map .string) :
    (of ms).optional field Reading.string = .ok s :=
  optional_of h (by simp [Value.toTree]) (by simp [Value.toTree, Reading.string])

theorem nullable_string {s : Option String} (h : ms.lookup field = some ((s.map .string).getD .null)) :
    (of ms).optional field Reading.string = .ok s :=
  optional_of_orNull h (by simp [Value.toTree]) (by simp [Value.toTree, Reading.string])

theorem optional_bool {b : Option Bool} (h : ms.lookup field = b.map .bool) :
    (of ms).optional field Reading.bool = .ok b :=
  optional_of h (by simp [Value.toTree]) (by simp [Value.toTree, Reading.bool])

theorem optional_natural {n : Option Nat} (h : ms.lookup field = n.map Value.ofNat)
    (hn : ∀ k ∈ n, k ≤ Text.wordMax) : (of ms).optional field (Reading.natural Text.wordMax) = .ok n :=
  optional_of h (by simp [Value.ofNat, Value.toTree]) fun k hk =>
    Reading.natural_ofNat (hn k hk) (hn k hk)

end Members

end Json

open Calendar (Timestamp)
open Json (Value Members Reading Ordered)
open Json.Members (required_of orElse_of orElse_of_none optional_of optional_of_orNull optional_string
  nullable_string optional_bool optional_natural)

/-! ## Saved sessions -/

theorem StorageEntry.read_toValue (e : StorageEntry) : read e.toValue.toTree = .ok e := by
  obtain ⟨ms, hms, hkeys, hname, hvalue⟩ : ∃ ms, e.toValue = .object ms ∧
      Ordered ms ["name", "value"] ∧ ms.lookup "name" = some (.string e.name) ∧
      ms.lookup "value" = some (.string e.value) := ⟨_, rfl, by simp [Ordered], rfl, rfl⟩
  rw [hms, read, Members.ofTree_object (by decide) hkeys]
  simp only [bind, Except.bind, required_of hname, required_of hvalue]
  rfl

/-- The members may stand in any order, and entries of the session may be left out if there are none. -/
theorem OriginStorage.read_object {o : OriginStorage} {ms : List (String × Value)}
    (hin : ∀ m ∈ ms, m.1 ∈ ["origin", "localStorage", "sessionStorage"]) (hnodup : (ms.map Prod.fst).Nodup)
    (horigin : ms.lookup "origin" = some (.string o.origin))
    (hlocal : ms.lookup "localStorage" = some (.array (o.localEntries.map StorageEntry.toValue)))
    (hsession : ms.lookup "sessionStorage" = some (.array (o.sessionEntries.map StorageEntry.toValue)) ∨
      ms.lookup "sessionStorage" = none ∧ o.sessionEntries = []) :
    read (Value.object ms).toTree = .ok o := by
  have hentries : ∀ es : List StorageEntry, Reading.list StorageEntry.read
      (Value.array (es.map StorageEntry.toValue)).toTree = .ok es :=
    fun es => Json.Reading.list_array fun e _ => e.read_toValue
  have hlasting : (Members.of ms).orElse "localStorage" [] (Reading.list StorageEntry.read) =
      .ok o.localEntries := by
    rw [orElse_of hlocal, hentries]
  have hpassing : (Members.of ms).orElse "sessionStorage" [] (Reading.list StorageEntry.read) =
      .ok o.sessionEntries := by
    rcases hsession with hsession | ⟨hsession, hnone⟩
    · rw [orElse_of hsession, hentries]
    · rw [orElse_of_none hsession, hnone]
  rw [read, Members.ofTree_known hin hnodup]
  simp only [bind, Except.bind, required_of horigin, hlasting, hpassing]
  rfl

theorem OriginStorage.read_toValue (o : OriginStorage) : read o.toValue.toTree = .ok o := by
  obtain ⟨origin, localEntries, _ | ⟨entry, rest⟩⟩ := o
  · exact read_object (by simp) (by simp) rfl rfl (.inr ⟨rfl, rfl⟩)
  · exact read_object (by simp) (by simp) rfl rfl (.inl rfl)

/-- Every cookie is as a reader makes values. -/
def SavedSession.Sound (s : SavedSession) : Prop := ∀ c ∈ s.cookies, c.Proper

theorem SavedSession.readWithin_toValue {s : SavedSession} {room : Nat} (h : s.Sound)
    (hheight : s.toValue.height ≤ room + 2) : readWithin room s.toValue.toTree = .ok s := by
  obtain ⟨ms, hms, hkeys, hcookies, horigins⟩ : ∃ ms, s.toValue = .object ms ∧
      Ordered ms ["cookies", "origins"] ∧
      ms.lookup "cookies" = some (.array s.cookies) ∧
      ms.lookup "origins" = some (.array (s.origins.map OriginStorage.toValue)) :=
    ⟨_, rfl, by simp [Ordered], rfl, rfl⟩
  have hkept : Reading.list (Reading.value room) (Value.array s.cookies).toTree = .ok s.cookies := by
    have hlist := Value.height_of_lookup hcookies
    rw [hms, Value.height] at hheight
    rw [Value.height] at hlist
    have heach : ∀ c ∈ s.cookies, Reading.value room c.toTree = .ok c := fun c hc => by
      have hc' := Value.itemsHeight_le.1 (Nat.le_refl _) c hc
      rw [Reading.value, Value.ofTree?_toTree (h c hc) (by omega)]
    simpa using Json.Reading.list_array (f := id) heach
  have hstored : Reading.list OriginStorage.read
      (Value.array (s.origins.map OriginStorage.toValue)).toTree =
      .ok s.origins := Json.Reading.list_array fun o _ => o.read_toValue
  rw [hms, readWithin, Members.ofTree_object (by decide) hkeys]
  simp only [bind, Except.bind, orElse_of hcookies, orElse_of horigins, hkept, hstored]
  rfl

/-! ## Documents of steps -/

theorem StepDocument.read_toValue {d : StepDocument} (h : ∀ n ∈ d.timeout, n ≤ Text.wordMax) :
    read d.toValue.toTree = .ok d := by
  obtain ⟨ms, hms, hkeys, haction, hname, htarget, hurl, hvalue, hsave, hscenario, hfile, hstate, hcheck,
      hlogin, hselector, hpattern, htimeout, hcontinue, hoptional⟩ :
      ∃ ms, d.toValue = .object ms ∧ Ordered ms fields ∧
        ms.lookup "action" = some (.string d.action) ∧
        ms.lookup "name" = d.name.map .string ∧
        ms.lookup "target" = d.target.map .string ∧
        ms.lookup "url" = d.url.map .string ∧
        ms.lookup "value" = d.value.map .string ∧
        ms.lookup "save_as" = d.saveAs.map .string ∧
        ms.lookup "scenario_id" = d.scenarioId.map .string ∧
        ms.lookup "file_path" = d.filePath.map .string ∧
        ms.lookup "state_name" = d.stateName.map .string ∧
        ms.lookup "check_url" = d.checkUrl.map .string ∧
        ms.lookup "login_scenario_id" = d.loginScenarioId.map .string ∧
        ms.lookup "logged_in_selector" = d.loggedInSelector.map .string ∧
        ms.lookup "login_url_pattern" = d.loginUrlPattern.map .string ∧
        ms.lookup "timeout" = d.timeout.map Value.ofNat ∧
        ms.lookup "continue_on_error" = d.continueOnError.map .bool ∧
        ms.lookup "optional" = d.optional.map .bool := by
    refine ⟨_, rfl, ?_, ?_⟩
    · exact Ordered.nil |>.always "action" _ |>.maybe "name" _ |>.maybe "target" _ |>.maybe "url" _
        |>.maybe "value" _ |>.maybe "save_as" _ |>.maybe "scenario_id" _ |>.maybe "file_path" _
        |>.maybe "state_name" _ |>.maybe "check_url" _ |>.maybe "login_scenario_id" _
        |>.maybe "logged_in_selector" _ |>.maybe "login_url_pattern" _ |>.maybe "timeout" _
        |>.maybe "continue_on_error" _ |>.maybe "optional" _
    · simp [List.lookup_append, List.lookup_cons, Json.Value.lookup_member?]
  rw [hms, read, Members.ofTree_object (by decide) hkeys]
  simp only [bind, Except.bind, required_of haction, optional_string hname, optional_string htarget,
    optional_string hurl, optional_string hvalue, optional_string hsave, optional_string hscenario,
    optional_string hfile, optional_string hstate, optional_string hcheck, optional_string hlogin,
    optional_string hselector, optional_string hpattern, optional_natural htimeout h,
    optional_bool hcontinue, optional_bool hoptional]
  rfl

/-! ## Outcomes and records of runs -/

theorem StepStatus.ofWord?_word (s : StepStatus) : ofWord? s.word = some s := by cases s <;> decide

theorem RunStatus.ofWord?_word (s : RunStatus) : ofWord? s.word = some s := by cases s <;> decide

theorem Json.Reading.word_string {α : Type} {ofWord : String → Option α} {expected : String} {a : α}
    {s : String} (h : ofWord s = some a) : word ofWord expected (Value.string s).toTree = .ok a := by
  simp [Value.toTree, word, h]

/-- Numbers in the range of their kind. -/
structure NetworkRequest.Sound (r : NetworkRequest) : Prop where
  status : ∀ n ∈ r.status, n ≤ 65535
  duration : r.durationMs ≤ Text.wordMax
  size : r.responseSize ≤ Text.wordMax

theorem NetworkRequest.read_toValue {r : NetworkRequest} (h : r.Sound) :
    read r.toValue.toTree = .ok r := by
  obtain ⟨ms, hms, hkeys, hurl, hmethod, hstatus, hduration, hsize, herror⟩ :
      ∃ ms, r.toValue = .object ms ∧
        Ordered ms ["url", "method", "status", "duration_ms", "response_size", "error"] ∧
        ms.lookup "url" = some (.string r.url) ∧
        ms.lookup "method" = some (.string r.method) ∧
        ms.lookup "status" = some ((r.status.map Value.ofNat).getD .null) ∧
        ms.lookup "duration_ms" = some (Value.ofNat r.durationMs) ∧
        ms.lookup "response_size" = some (Value.ofNat r.responseSize) ∧
        ms.lookup "error" = r.error.map .string := by
    refine ⟨_, rfl, ?_, ?_⟩
    · exact Ordered.nil |>.always "url" _ |>.always "method" _ |>.always "status" _
        |>.always "duration_ms" _ |>.always "response_size" _ |>.maybe "error" _
    · simp [List.lookup_cons, Json.Value.lookup_member?]
  have hread : (Members.of ms).optional "status" (Reading.natural 65535) = .ok r.status :=
    optional_of_orNull hstatus (by simp [Value.ofNat, Value.toTree]) fun n hn =>
      Json.Reading.natural_ofNat (h.status n hn) (Nat.le_trans (h.status n hn) (by decide))
  rw [hms, read, Members.ofTree_object (by decide) hkeys]
  simp only [bind, Except.bind, required_of hurl, required_of hmethod, hread, required_of hduration,
    orElse_of hsize, optional_string herror, Json.Reading.natural_ofNat h.duration h.duration,
    Json.Reading.natural_ofNat h.size h.size]
  rfl

namespace Outcome

theorem toValues_eq_map (os : List Outcome) : toValues os = os.map toValue := by
  induction os with
  | nil => rfl
  | cons o os ih => simp [toValues, ih]

/-- Numbers in the range of their kind, in the outcome and below it. -/
inductive Sound : Outcome → Prop where
  | intro {o : Outcome} : o.index ≤ Text.wordMax → o.durationMs ≤ Text.wordMax →
      (∀ r ∈ o.requests, r.Sound) → (∀ c ∈ o.children, Sound c) → Sound o

/-- What is written of an outcome, field by field. -/
theorem toValue_fields (o : Outcome) :
    ∃ ms, o.toValue = .object ms ∧ Ordered ms fields ∧
      ms.lookup "index" = some (.ofNat o.index) ∧
      ms.lookup "action" = some (.string o.action.word) ∧
      ms.lookup "name" = o.name.map .string ∧
      ms.lookup "status" = some (.string o.status.word) ∧
      ms.lookup "selector" = o.selector.map .string ∧
      ms.lookup "error" = o.error.map .string ∧
      ms.lookup "duration_ms" = some (.ofNat o.durationMs) ∧
      ms.lookup "screenshot" = o.screenshot.map .string ∧
      ms.lookup "network_requests" = some (.array (o.requests.map NetworkRequest.toValue)) ∧
      ms.lookup "logs" = some (.array (o.logs.map .string)) ∧
      ms.lookup "children" = if o.children = [] then none
        else some (.array (o.children.map toValue)) := by
  obtain ⟨index, action, name, status, selector, error, duration, screenshot, requests, logs,
    children⟩ := o
  have hstart := Ordered.nil |>.always "index" (.ofNat index) |>.always "action" (.string action.word)
    |>.maybe "name" (name.map .string) |>.always "status" (.string status.word)
    |>.maybe "selector" (selector.map .string) |>.maybe "error" (error.map .string)
    |>.always "duration_ms" (.ofNat duration) |>.maybe "screenshot" (screenshot.map .string)
    |>.always "network_requests" (.array (requests.map NetworkRequest.toValue))
    |>.always "logs" (.strings logs)
  cases children with
  | nil =>
    refine ⟨_, toValue.eq_1 .., ?_, ?_⟩
    · simpa [fields, Value.member?] using hstart.maybe "children" none
    · simp [List.lookup_append, List.lookup_cons, Json.Value.lookup_member?, Value.strings]
  | cons child rest =>
    refine ⟨_, toValue.eq_2 .., ?_, ?_⟩
    · simpa [fields] using hstart.always "children" (.array (toValue child :: toValues rest))
    · simp [List.lookup_append, List.lookup_cons, Json.Value.lookup_member?, Value.strings, toValues_eq_map]

theorem readWithin_toValue {o : Outcome} (h : o.Sound) {depth : Nat}
    (hdepth : o.toValue.height ≤ 2 * depth) :
    readWithin depth o.toValue.toTree = .ok o := by
  induction h generalizing depth with
  | @intro o hindex hduration hrequests hchildren ih =>
    obtain ⟨ms, hms, hkeys, index, action, name, status, selector, error, duration, screenshot, requests,
      logs, children⟩ := o.toValue_fields
    rw [hms, Value.height] at hdepth
    obtain ⟨depth, rfl⟩ : ∃ n, depth = n + 1 := ⟨depth - 1, by omega⟩
    have hread : (Members.of ms).orElse "children" [] (Reading.list (readWithin depth)) =
        .ok o.children := by
      by_cases hnone : o.children = []
      · rw [if_pos hnone] at children
        rw [orElse_of_none children, hnone]
      · rw [if_neg hnone] at children
        have hlist := Value.height_of_lookup children
        have heach : ∀ c ∈ o.children, c.toValue.height ≤ 2 * depth := fun c hc => by
          have hc := Value.itemsHeight_le.1 (Nat.le_refl _) _ (List.mem_map_of_mem (f := toValue) hc)
          rw [Value.height] at hlist
          omega
        rw [orElse_of children]
        exact Json.Reading.list_array fun c hc => ih c hc (heach c hc)
    have hrequest : Reading.list NetworkRequest.read
        (Value.array (o.requests.map NetworkRequest.toValue)).toTree =
        .ok o.requests := Json.Reading.list_array fun r hr => r.read_toValue (hrequests r hr)
    have hlog : Reading.list Reading.string (Value.array (o.logs.map .string)).toTree = .ok o.logs :=
      Json.Reading.list_array fun _ _ => by simp [Value.toTree, Reading.string]
    rw [hms, readWithin, Members.ofTree_object (by decide) hkeys]
    simp only [bind, Except.bind, required_of index, required_of action, optional_string name,
      required_of status, optional_string selector, optional_string error, required_of duration,
      optional_string screenshot, orElse_of requests, orElse_of logs, hread, hrequest, hlog,
      Json.Reading.natural_ofNat hindex hindex, Json.Reading.natural_ofNat hduration hduration,
      Json.Reading.word_string (Action.ofWord?_word _), Json.Reading.word_string (StepStatus.ofWord?_word _)]
    cases o
    rfl

end Outcome

namespace RunRecord

/-- Numbers in the range of their kind, and instants whose texts are read as them. -/
structure Sound (r : RunRecord) : Prop where
  steps : ∀ o ∈ r.steps, o.Sound
  total : r.totalMs ≤ Text.wordMax
  start : Timestamp.ofText? r.startTime.text = some r.startTime
  finish : ∀ t ∈ r.endTime, Timestamp.ofText? t.text = some t

theorem time_text {t : Timestamp} (h : Timestamp.ofText? t.text = some t) :
    time (Value.string t.text).toTree = .ok t := by
  simp [time, Value.toTree, Reading.string, bind, Except.bind, h]

theorem read_toValue {r : RunRecord} (h : r.Sound) (hheight : r.toValue.height ≤ Json.textRoom) :
    read r.toValue.toTree = .ok r := by
  obtain ⟨ms, hms, hkeys, hid, hstatus, hscenario, hproject, hgoal, hsteps, hstart, hfinish, htotal, hdir,
      hvideo, herror⟩ :
      ∃ ms, r.toValue = .object ms ∧ Ordered ms fields ∧
        ms.lookup "run_id" = some (.string r.runId) ∧
        ms.lookup "status" = some (.string r.status.word) ∧
        ms.lookup "scenario_id" = some (.string r.scenarioId) ∧
        ms.lookup "project_id" = some ((r.projectId.map .string).getD .null) ∧
        ms.lookup "goal" = some (.string r.goal) ∧
        ms.lookup "steps" = some (.array (r.steps.map Outcome.toValue)) ∧
        ms.lookup "start_time" = some (.string r.startTime.text) ∧
        ms.lookup "end_time" =
          some ((r.endTime.map fun t => Value.string t.text).getD .null) ∧
        ms.lookup "total_duration_ms" = some (.ofNat r.totalMs) ∧
        ms.lookup "artifact_dir" = some ((r.artifactDir.map .string).getD .null) ∧
        ms.lookup "video" = some ((r.video.map .string).getD .null) ∧
        ms.lookup "error" = r.error.map .string := by
    refine ⟨_, rfl, ?_, ?_⟩
    · exact Ordered.nil |>.always "run_id" _ |>.always "status" _ |>.always "scenario_id" _
        |>.always "project_id" _ |>.always "goal" _ |>.always "steps" _ |>.always "start_time" _
        |>.always "end_time" _ |>.always "total_duration_ms" _ |>.always "artifact_dir" _
        |>.always "video" _ |>.maybe "error" _
    · simp [List.lookup_cons, Json.Value.lookup_member?, Outcome.toValues_eq_map, Function.comp_def]
  have hroom : Value.membersHeight ms + 1 ≤ 127 := by
    simpa [hms, Value.height, Json.textRoom] using hheight
  have hread :
      Reading.list Outcome.read (Value.array (r.steps.map Outcome.toValue)).toTree = .ok r.steps := by
    refine Json.Reading.list_array fun o ho => Outcome.readWithin_toValue (h.steps o ho) ?_
    have hlist := Value.height_of_lookup hsteps
    have ho := Value.itemsHeight_le.1 (Nat.le_refl _) _ (List.mem_map_of_mem (f := Outcome.toValue) ho)
    rw [Value.height] at hlist
    omega
  have hend : (Members.of ms).optional "end_time" time = .ok r.endTime :=
    optional_of_orNull hfinish (by simp [Value.toTree]) fun t ht => time_text (h.finish t ht)
  rw [hms, read, Members.ofTree_object (by decide) hkeys]
  simp only [bind, Except.bind, required_of hid, required_of hstatus, required_of hscenario,
    nullable_string hproject, required_of hgoal, required_of hsteps, required_of hstart, hend,
    required_of htotal, nullable_string hdir, nullable_string hvideo, optional_string herror, hread,
    time_text h.start, Json.Reading.natural_ofNat h.total h.total,
    Json.Reading.word_string (RunStatus.ofWord?_word _)]
  rfl

end RunRecord

/-! ## Texts and files -/

theorem Json.readText_of_read {α : Type} {read : Reading α} {text : String} {t : Json.Tree} {a : α}
    (ht : Json.Tree.read text = .ok t) (h : read t = .ok a) : Json.readText read text = .ok a := by
  simp [Json.readText, ht, h]

theorem SavedSession.ofText_of_read {s : SavedSession} {text : String} (h : s.Sound)
    (hheight : s.toValue.height ≤ Json.textRoom) (ht : Json.Tree.read text = .ok s.toValue.toTree) :
    SavedSession.ofText text = .ok s :=
  Json.readText_of_read ht (readWithin_toValue h hheight)

theorem Disk.readText_of_write {d d' : Disk} {p : Disk.Path} {text : String}
    (h : d.write p text.toUTF8.data.toList = .ok d') (hslash : p.toList.getLast? ≠ some '/') :
    d'.readText p = .ok text := by
  obtain ⟨found, hfound⟩ : ∃ found, d.locate p = .ok found := by
    cases hl : d.locate p with
    | ok found => exact ⟨found, rfl⟩
    | error fault => simp [Disk.write, hl, bind, Except.bind] at h
  obtain ⟨hfile, rfl⟩ := Disk.write_eq_ok h
  have hne : d.place p ≠ [] := fun hnil => hfile (by rw [hnil, Disk.node?_nil])
  have hfolders : ∀ at_, d.node? at_ = some .folder →
      (d.put (d.place p) (.file text.toUTF8.data.toList)).node? at_ = some .folder := by
    intro at_ hat
    rwa [Disk.node?_put_of_ne (by rintro rfl; exact hfile hat)]
  have hlater := Disk.locate_later hfound hslash (Disk.put_cwd ..) hfolders
  rw [Disk.node?_put hne] at hlater
  exact Disk.readText_of_file hlater

/-- A record that was put into the folder of its run stands there as the text that is read as it. -/
theorem ArtifactSink.readText_of_storeResult {dir : Disk.Path} {d : Desk} {r : RunRecord}
    {place : Option String} (h : ((folder dir).storeResult d r).1 = .ok place) :
    ∃ path, place = some path ∧
      ((folder dir).storeResult d r).2.disk.readText path = .ok (r.toValue.pretty 0) := by
  have hname : Disk.Path.IsName resultName := by
    constructor <;> decide
  cases hw : d.disk.write (dir.join resultName) (r.toValue.pretty 0).toUTF8.data.toList with
  | error fault => simp only [folder, ArtifactSink.write, hw, Except.map, reduceCtorEq] at h
  | ok disk =>
    simp only [folder, ArtifactSink.write, hw, Except.map, Except.ok.injEq] at h ⊢
    exact ⟨_, h.symm, Disk.readText_of_write hw (Disk.Path.getLast?_join hname dir)⟩

/-- Whatever is written of a run, of a step or of a saved session is read as the very same thing. -/
theorem documents_read_back :
    (∀ r : RunRecord, r.Sound → r.toValue.height ≤ Json.textRoom →
      Json.readText RunRecord.read (r.toValue.pretty 0) = .ok r ∧
      ∀ (dir : Disk.Path) (d : Desk) (place : Option String),
        ((ArtifactSink.folder dir).storeResult d r).1 = .ok place →
        ∃ path text, place = some path ∧
          ((ArtifactSink.folder dir).storeResult d r).2.disk.readText path = .ok text ∧
          Json.readText RunRecord.read text = .ok r) ∧
    (∀ (d : StepDocument) (depth : Nat), (∀ n ∈ d.timeout, n ≤ Text.wordMax) →
      Json.readText StepDocument.read (d.toValue.pretty depth) = .ok d ∧
      Json.readText StepDocument.read d.toValue.compact = .ok d) ∧
    ∀ (s : SavedSession) (depth : Nat), s.Sound → s.toValue.height ≤ Json.textRoom →
      SavedSession.ofText (s.toValue.pretty depth) = .ok s ∧
      SavedSession.ofText s.toValue.compact = .ok s := by
  refine ⟨fun r hr hheight => ?_, fun d depth hd => ?_, fun s depth hs hheight => ?_⟩
  · have hread : Json.readText RunRecord.read (r.toValue.pretty 0) = .ok r :=
      Json.readText_of_read (Value.read_pretty _ _) (RunRecord.read_toValue hr hheight)
    refine ⟨hread, fun dir d place hstore => ?_⟩
    obtain ⟨path, hpath, htext⟩ := ArtifactSink.readText_of_storeResult hstore
    exact ⟨path, _, hpath, htext, hread⟩
  · have hread := StepDocument.read_toValue hd
    exact ⟨Json.readText_of_read (Value.read_pretty _ _) hread,
      Json.readText_of_read (Value.read_compact _) hread⟩
  · exact ⟨s.ofText_of_read hs hheight (Value.read_pretty _ _),
      s.ofText_of_read hs hheight (Value.read_compact _)⟩

/-- A run that was stopped inside a scenario it called, after a request without an answer. -/
def RunRecord.stopped : RunRecord where
  runId := "r-1"
  status := .cancelled
  scenarioId := "shop"
  projectId := some "演示"
  goal := "say \"hi\"\n"
  steps := [{
    index := 0, action := .runScenario, name := none, status := .failed, selector := none
    error := some "stopped\t😀", durationMs := 18446744073709551615, screenshot := none, requests := []
    logs := [""]
    children := [{
      index := 0, action := .goto, name := some "", status := .success, selector := some "/a\\b"
      error := none, durationMs := 0, screenshot := some "0.png"
      requests := [⟨"/x", "GET", none, 3, 0, some "gone"⟩, ⟨"/y", "PUT", some 65535, 0, 7, none⟩]
      logs := [], children := [] }] }]
  startTime := ⟨0, 120034⟩
  endTime := some ⟨86399, 5000000⟩
  totalMs := 12
  artifactDir := some "/runs"
  video := none
  error := some ""

theorem RunRecord.sound_stopped : RunRecord.stopped.Sound where
  steps := by
    have hrequests : ∀ r ∈ [NetworkRequest.mk "/x" "GET" none 3 0 (some "gone"),
        ⟨"/y", "PUT", some 65535, 0, 7, none⟩], r.Sound := by
      rintro r hr
      simp only [List.mem_cons, List.not_mem_nil, or_false] at hr
      rcases hr with rfl | rfl <;> exact ⟨by decide, by decide, by decide⟩
    intro o ho
    obtain rfl := List.mem_singleton.1 ho
    refine .intro (by decide) (by decide) (by simp) fun c hc => ?_
    obtain rfl := List.mem_singleton.1 hc
    exact .intro (by decide) (by decide) hrequests (by simp)
  total := by decide
  start := by decide
  finish := by decide

/-- A desk with an empty folder for a run. -/
def Desk.tidy : Desk := .ofDisk ⟨[], [(["runs"], .folder)]⟩

/-- A cookie of two containers with a half in it, and an origin whose storage of the browser's session is
empty. -/
def SavedSession.small : SavedSession :=
  ⟨[.object [("a", .number (.below 1)), ("b", .array [.number (.real ⟨false, 4503599627370496, -53⟩)])]],
    [⟨"o", [⟨"n", "v"⟩], []⟩]⟩

theorem SavedSession.sound_small : SavedSession.small.Sound := by
  intro c hc
  obtain rfl := List.mem_singleton.1 hc
  refine .object ?_ (by decide)
  simp only [List.mem_cons, List.not_mem_nil, or_false]
  rintro m (rfl | rfl)
  · exact .number ⟨by decide, by decide⟩
  · refine .array fun v hv => ?_
    obtain rfl := List.mem_singleton.1 hv
    exact .number (by decide : (Value.numeralOf (.real _)).number? = some (.real _))

theorem SavedSession.height_small : SavedSession.small.toValue.height ≤ Json.textRoom := by decide

def StepDocument.waiting : StepDocument :=
  ⟨" wait ", none, none, none, some "", none, none, none, none, none, none, none, none, some 0, none,
    some false⟩

theorem RunRecord.height_stopped : RunRecord.stopped.toValue.height ≤ Json.textRoom := by decide

/-- The record of a run with a scenario inside it, a document with blanks, and a session with a cookie
of two containers. -/
theorem documents_read_back_stopped :
    let sink := ArtifactSink.folder "/runs"
    RunRecord.stopped.Sound ∧ RunRecord.stopped.toValue.height ≤ Json.textRoom ∧
      (sink.storeResult Desk.tidy RunRecord.stopped).1 = .ok (some "/runs/result.json") ∧
      (∃ text, (sink.storeResult Desk.tidy RunRecord.stopped).2.disk.readText "/runs/result.json" =
          .ok text ∧ Json.readText RunRecord.read text = .ok RunRecord.stopped) ∧
      (∀ n ∈ StepDocument.waiting.timeout, n ≤ Text.wordMax) ∧
      Json.readText StepDocument.read (StepDocument.waiting.toValue.pretty 0) = .ok .waiting ∧
      SavedSession.small.Sound ∧ SavedSession.small.toValue.height ≤ Json.textRoom ∧
      SavedSession.ofText SavedSession.small.toValue.compact = .ok .small := by
  have hstore : ((ArtifactSink.folder "/runs").storeResult Desk.tidy RunRecord.stopped).1 =
      .ok (some "/runs/result.json") := by decide +kernel
  have htimeout : ∀ n ∈ StepDocument.waiting.timeout, n ≤ Text.wordMax := by decide
  obtain ⟨hrecord, hdocument, hsaved⟩ := documents_read_back
  obtain ⟨path, text, hpath, htext, hread⟩ :=
    (hrecord RunRecord.stopped RunRecord.sound_stopped RunRecord.height_stopped).2 "/runs" Desk.tidy _ hstore
  rw [← Option.some.inj hpath] at htext
  exact ⟨RunRecord.sound_stopped, RunRecord.height_stopped, hstore, ⟨text, htext, hread⟩, htimeout,
    (hdocument .waiting 0 htimeout).1, SavedSession.sound_small, SavedSession.height_small,
    (hsaved .small 0 SavedSession.sound_small SavedSession.height_small).2⟩

end Rehearsal
