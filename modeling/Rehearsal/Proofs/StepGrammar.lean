import Rehearsal.Proofs.Readiness
import Rehearsal.Proofs.Tokens

/-! # The grammar of steps

Which documents are steps, said for each instruction by the fields it is described with. A document
is accepted exactly when it describes an instruction of its action, and then it is that instruction;
no field counts but those the action has.
-/
namespace Rehearsal

namespace Text

/-- A slot opens somewhere in the text. -/
def HasSlot (v : String) : Prop :=
  ∃ before after, v.toList = before ++ '\x7b' :: '\x7b' :: after

/-- A natural number of 64 bits in decimal, perhaps with a plus sign. -/
def IsWordText (v : String) : Prop :=
  ∃ digits, (v.toList = digits ∨ v.toList = '+' :: digits) ∧ digits ≠ [] ∧
    Json.Tree.IsDigits digits ∧ Json.Tree.ofDigits (digits.filterMap digit?) ≤ wordMax

theorem occurs_iff (part whole : List Char) :
    occurs part whole = true ↔ ∃ before after, whole = before ++ part ++ after := by
  induction whole with
  | nil => simp [occurs]
  | cons c cs ih =>
    rw [occurs, Bool.or_eq_true, ih, List.isPrefixOf_iff_prefix]
    constructor
    · rintro (⟨after, hafter⟩ | ⟨before, after, rfl⟩)
      · exact ⟨[], after, hafter.symm⟩
      · exact ⟨c :: before, after, rfl⟩
    · rintro ⟨before, after, hwhole⟩
      cases before with
      | nil => exact .inl ⟨after, hwhole.symm⟩
      | cons b before =>
        obtain ⟨rfl, rfl⟩ := List.cons.inj hwhole
        exact .inr ⟨before, after, rfl⟩

theorem contains_braces_iff (v : String) : contains v "\x7b\x7b" = true ↔ HasSlot v := by
  have hbraces : "\x7b\x7b".toList = ['\x7b', '\x7b'] := rfl
  simp [contains, occurs_iff, hbraces, HasSlot]

theorem digitsFrom?_eq (acc : Nat) (cs : List Char) (n : Nat) :
    digitsFrom? acc cs = some n ↔
      Json.Tree.IsDigits cs ∧ (cs.filterMap digit?).foldl (fun acc d => acc * 10 + d) acc = n := by
  induction cs generalizing acc with
  | nil => simp [digitsFrom?, Json.Tree.IsDigits]
  | cons c cs ih =>
    cases hc : digit? c with
    | none => simp [digitsFrom?, Json.Tree.IsDigits, hc]
    | some d =>
      have hcomm : 10 * acc + d = acc * 10 + d := by omega
      simp [digitsFrom?, Json.Tree.IsDigits, hc, ih, hcomm]

theorem digits?_eq_some_iff {cs : List Char} {n : Nat} :
    digits? cs = some n ↔
      cs ≠ [] ∧ Json.Tree.IsDigits cs ∧ Json.Tree.ofDigits (cs.filterMap digit?) = n := by
  cases cs with
  | nil => simp [digits?]
  | cons c cs => simp [digits?, digitsFrom?_eq, Json.Tree.ofDigits]

theorem isSome_natural?_iff (v : String) : (natural? wordMax v).isSome ↔ IsWordText v := by
  have hread : ∀ cs, ((digits? cs).filter (· ≤ wordMax)).isSome ↔
      cs ≠ [] ∧ Json.Tree.IsDigits cs ∧ Json.Tree.ofDigits (cs.filterMap digit?) ≤ wordMax := by
    intro cs
    simp only [Option.isSome_iff_exists, Option.filter_eq_some_iff, digits?_eq_some_iff,
      decide_eq_true_eq]
    constructor
    · rintro ⟨n, ⟨hne, hdigits, rfl⟩, hle⟩
      exact ⟨hne, hdigits, hle⟩
    · rintro ⟨hne, hdigits, hle⟩
      exact ⟨_, ⟨hne, hdigits, rfl⟩, hle⟩
  have hplus : ∀ rest, ¬ Json.Tree.IsDigits ('+' :: rest) := fun rest h => by
    have := h '+' (by simp)
    simp [digit?] at this
  rw [natural?, hread, IsWordText]
  constructor
  · split
    · next rest hrest => exact fun h => ⟨rest, .inr hrest, h⟩
    · exact fun h => ⟨v.toList, .inl rfl, h⟩
  · rintro ⟨digits, hv | hv, h⟩
    · split
      · next rest hrest =>
        rw [← hv, hrest] at h
        exact absurd h.2.1 (hplus rest)
      · rwa [hv]
    · rw [hv]
      exact h

end Text

namespace StepDocument

open Text (HasSlot IsWordText)

/-- A field that is there and not blank. -/
def Given (field : Option String) (v : String) : Prop := field = some v ∧ Text.allBlank v = false

/-- The first of two fields, or the second where the first is not given. -/
def Picked (field other : Option String) (v : String) : Prop :=
  Given field v ∨ (∀ w, ¬ Given field w) ∧ Given other v

/-- What is chosen, or something that stands for nothing chosen. -/
def OrDefault (chosen : String → Prop) (default v : String) : Prop :=
  chosen v ∨ (∀ w, ¬ chosen w) ∧ v = default

/-- The document has what the instruction is made of. -/
def Describes (d : StepDocument) : Instruction → Prop
  | .goto url => Given d.url url
  | .interact _ target => Given d.target target
  | .waitFor target => Given d.target target
  | .fill target value => Given d.target target ∧ Given d.value value
  | .type target value => Given d.target target ∧ Given d.value value
  | .select target value => Given d.target target ∧ Given d.value value
  | .assertText target value => Given d.target target ∧ Given d.value value
  | .press target key => Given d.target target ∧ OrDefault (Given d.value) defaultKey key
  | .runScript script => Given d.value script
  | .wait value => Given d.value value ∧ (HasSlot value ∨ IsWordText (Text.trim value))
  | .screenshot => True
  | .extract target saveAs => Given d.target target ∧ Picked d.saveAs d.value saveAs
  | .uploadFile target file => Given d.target target ∧ Picked d.filePath d.value file
  | .pasteImage target file => Given d.target target ∧ Picked d.filePath d.value file
  | .runScenario id => Picked d.scenarioId d.value id
  | .loadSession name => Picked d.stateName d.value name ∧ Session.isSegment name = true
  | .saveSession name =>
    OrDefault (Picked d.stateName d.value) defaultStateName name ∧ Session.isSegment name = true
  | .ensureLogin rule =>
    Picked d.checkUrl d.url rule.checkUrl ∧
      Picked d.loginScenarioId d.scenarioId rule.loginScenario ∧
      OrDefault (Given d.stateName) defaultStateName rule.stateName ∧
      Session.isSegment rule.stateName = true ∧
      (∀ selector,
        rule.loggedInSelector = some selector ↔ Picked d.loggedInSelector d.target selector) ∧
      rule.loginUrlPattern = d.loginUrlPattern.getD defaultLoginUrlPattern

/-! ## Choosing a field -/

variable {field other : Option String} {v : String}

theorem present_eq_some_iff : present field = some v ↔ Given field v := by
  simp [present, Given, Option.filter_eq_some_iff]

theorem present_eq_none_iff : present field = none ↔ ∀ w, ¬ Given field w := by
  simp only [Option.eq_none_iff_forall_ne_some, ne_eq, present_eq_some_iff]

theorem or_present_eq_some_iff :
    (present field).or (present other) = some v ↔ Picked field other v := by
  rw [Option.or_eq_some_iff, present_eq_some_iff, present_eq_none_iff, present_eq_some_iff, Picked]

theorem getD_eq_iff {chosen : Option String} {P : String → Prop} (h : ∀ w, chosen = some w ↔ P w)
    (default : String) : chosen.getD default = v ↔ OrDefault P default v := by
  cases hchosen : chosen with
  | none =>
    have hnone : ∀ w, ¬ P w := fun w hw => by simpa [hchosen] using (h w).2 hw
    simp [OrDefault, hnone, eq_comm]
  | some w =>
    have hw : ∀ u, P u ↔ w = u := fun u => by rw [← h, hchosen, Option.some.injEq]
    simp [OrDefault, hw]

theorem require_eq_ok_iff {action : Action} {name : String} :
    require action name field = .ok v ↔ Given field v := by
  rw [require, ← present_eq_some_iff]
  cases present field <;> simp

/-- A blank first field gives way to the second one, which must then be given itself. -/
theorem given_or_iff : Given ((present field).or other) v ↔ Picked field other v := by
  rw [Picked]
  cases hp : present field with
  | none => simp [present_eq_none_iff.1 hp]
  | some w =>
    have hw := present_eq_some_iff.1 hp
    have hnot : ¬ ∀ u, ¬ Given field u := fun hnone => hnone w hw
    simp only [Option.some_or, hnot, false_and, or_false]
    constructor
    · rintro ⟨heq, -⟩
      obtain rfl := Option.some.inj heq
      exact hw
    · rintro ⟨heq, hv⟩
      obtain ⟨rfl, -⟩ := hw
      exact ⟨heq, hv⟩

theorem stateKey_eq_ok_iff {action : Action} {name : String} :
    stateKey action name = .ok v ↔ name = v ∧ Session.isSegment v = true := by
  by_cases h : Session.isSegment name = true
  · simp only [stateKey, Session.checkSegment, h, if_true, Except.ok.injEq]
    constructor
    · rintro rfl
      exact ⟨rfl, h⟩
    · exact And.left
  · simp only [stateKey, Session.checkSegment, h, if_false, reduceCtorEq, false_iff]
    rintro ⟨rfl, hv⟩
    exact h hv

theorem waitValue_eq_ok_iff {value : String} :
    waitValue value = .ok v ↔ value = v ∧ (HasSlot v ∨ IsWordText (Text.trim v)) := by
  rw [waitValue, ← Text.contains_braces_iff, ← Text.isSome_natural?_iff]
  by_cases hslot : Text.contains value "\x7b\x7b" = true
  · simp only [hslot, if_true, Except.ok.injEq]
    constructor
    · rintro rfl
      exact ⟨rfl, .inl hslot⟩
    · exact And.left
  · simp only [hslot, Bool.false_eq_true, if_false, waitMillis]
    cases hn : Text.natural? Text.wordMax (Text.trim value) with
    | none =>
      simp only [Except.map, reduceCtorEq, false_iff]
      rintro ⟨rfl, h | h⟩
      · exact hslot h
      · simp [hn] at h
    | some n =>
      simp only [Except.map, Except.ok.injEq]
      constructor
      · rintro rfl
        exact ⟨rfl, .inr (by simp [hn])⟩
      · exact And.left

/-! ## Documents and instructions -/

theorem bind_eq_ok_iff {α β ε : Type} {f : α → Except ε β} {x : Except ε α} {b : β} :
    (x >>= f) = .ok b ↔ ∃ a, x = .ok a ∧ f a = .ok b := by
  cases x <;> simp [bind, Except.bind]

/-- A document gives an instruction of its action exactly when it describes it. -/
theorem instruction_eq_ok_iff {d : StepDocument} {action : Action} {i : Instruction} :
    d.instruction action = .ok i ↔ i.action = action ∧ d.Describes i := by
  have hkey : ∀ v, (present d.value).getD defaultKey = v ↔ OrDefault (Given d.value) defaultKey v :=
    fun _ => getD_eq_iff (fun _ => present_eq_some_iff) _
  have hname : ∀ v, (present d.stateName).getD defaultStateName = v ↔
      OrDefault (Given d.stateName) defaultStateName v :=
    fun _ => getD_eq_iff (fun _ => present_eq_some_iff) _
  have hsaved : ∀ v, ((present d.stateName).or (present d.value)).getD defaultStateName = v ↔
      OrDefault (Picked d.stateName d.value) defaultStateName v :=
    fun _ => getD_eq_iff (fun _ => or_present_eq_some_iff) _
  constructor
  · intro h
    cases action <;>
      simp only [instruction, map_eq_ok_iff, bind_eq_ok_iff, pure, Except.pure, Except.ok.injEq,
        require_eq_ok_iff, given_or_iff, stateKey_eq_ok_iff, waitValue_eq_ok_iff] at h
    case goto | click | dblclick | hover | focus | scroll | check | uncheck | waitFor | runJs |
        runScenario =>
      obtain ⟨v, hv, rfl⟩ := h
      exact ⟨rfl, hv⟩
    case fill | type | select | assertText | extract | uploadFile | pasteImage =>
      obtain ⟨target, htarget, v, hv, rfl⟩ := h
      exact ⟨rfl, htarget, hv⟩
    case press =>
      obtain ⟨target, htarget, rfl⟩ := h
      exact ⟨rfl, htarget, (hkey _).1 rfl⟩
    case wait =>
      obtain ⟨value, hvalue, v, ⟨rfl, hv⟩, rfl⟩ := h
      exact ⟨rfl, hvalue, hv⟩
    case screenshot =>
      subst h
      exact ⟨rfl, trivial⟩
    case saveAuthState =>
      obtain ⟨name, ⟨hchosen, hsegment⟩, rfl⟩ := h
      exact ⟨rfl, (hsaved _).1 hchosen, hsegment⟩
    case loadAuthState =>
      obtain ⟨name, hpicked, v, ⟨rfl, hsegment⟩, rfl⟩ := h
      exact ⟨rfl, hpicked, hsegment⟩
    case ensureAuth =>
      obtain ⟨url, hurl, login, hlogin, name, ⟨hchosen, hsegment⟩, rfl⟩ := h
      exact ⟨rfl, hurl, hlogin, (hname _).1 hchosen, hsegment, fun s => or_present_eq_some_iff, rfl⟩
  · rintro ⟨rfl, h⟩
    cases i with
    | interact gesture target =>
      cases gesture <;> exact map_eq_ok_iff.2 ⟨target, require_eq_ok_iff.2 h, rfl⟩
    | goto v | waitFor v | runScript v =>
      exact map_eq_ok_iff.2 ⟨v, require_eq_ok_iff.2 h, rfl⟩
    | runScenario id =>
      exact map_eq_ok_iff.2 ⟨id, require_eq_ok_iff.2 (given_or_iff.2 h), rfl⟩
    | fill target value | type target value | select target value | assertText target value =>
      exact bind_eq_ok_iff.2 ⟨target, require_eq_ok_iff.2 h.1,
        bind_eq_ok_iff.2 ⟨value, require_eq_ok_iff.2 h.2, rfl⟩⟩
    | extract target v | uploadFile target v | pasteImage target v =>
      exact bind_eq_ok_iff.2 ⟨target, require_eq_ok_iff.2 h.1,
        bind_eq_ok_iff.2 ⟨v, require_eq_ok_iff.2 (given_or_iff.2 h.2), rfl⟩⟩
    | press target key =>
      obtain rfl := (hkey key).2 h.2
      exact bind_eq_ok_iff.2 ⟨target, require_eq_ok_iff.2 h.1, rfl⟩
    | wait value =>
      exact bind_eq_ok_iff.2 ⟨value, require_eq_ok_iff.2 h.1,
        bind_eq_ok_iff.2 ⟨value, waitValue_eq_ok_iff.2 ⟨rfl, h.2⟩, rfl⟩⟩
    | screenshot => rfl
    | saveSession name =>
      exact map_eq_ok_iff.2 ⟨name, stateKey_eq_ok_iff.2 ⟨(hsaved name).2 h.1, h.2⟩, rfl⟩
    | loadSession name =>
      exact bind_eq_ok_iff.2 ⟨name, require_eq_ok_iff.2 (given_or_iff.2 h.1),
        bind_eq_ok_iff.2 ⟨name, stateKey_eq_ok_iff.2 ⟨rfl, h.2⟩, rfl⟩⟩
    | ensureLogin rule =>
      obtain ⟨checkUrl, loginScenario, stateName, selector, pattern⟩ := rule
      obtain ⟨hurl, hlogin, hstate, hsegment, hselector, hpattern⟩ := h
      obtain rfl : pattern = _ := hpattern
      obtain rfl : (present d.loggedInSelector).or (present d.target) = selector :=
        Option.ext fun s => or_present_eq_some_iff.trans (hselector s).symm
      exact bind_eq_ok_iff.2 ⟨checkUrl, require_eq_ok_iff.2 (given_or_iff.2 hurl),
        bind_eq_ok_iff.2 ⟨loginScenario, require_eq_ok_iff.2 (given_or_iff.2 hlogin),
          bind_eq_ok_iff.2 ⟨stateName, stateKey_eq_ok_iff.2 ⟨(hname _).2 hstate, hsegment⟩, rfl⟩⟩⟩

/-- The fields an action is described with. -/
def fieldsOf : Action → List (StepDocument → Option String)
  | .goto => [url]
  | .click | .dblclick | .hover | .focus | .scroll | .check | .uncheck | .waitFor => [target]
  | .fill | .type | .select | .assertText | .press => [target, value]
  | .runJs | .wait => [value]
  | .screenshot => []
  | .extract => [target, saveAs, value]
  | .uploadFile | .pasteImage => [target, filePath, value]
  | .runScenario => [scenarioId, value]
  | .saveAuthState | .loadAuthState => [stateName, value]
  | .ensureAuth =>
    [checkUrl, url, loginScenarioId, scenarioId, stateName, loggedInSelector, target,
      loginUrlPattern]

/-- Documents that agree on the fields of an action describe the same instructions of it. -/
theorem Describes.congr {d d' : StepDocument} {i : Instruction}
    (heq : ∀ field ∈ fieldsOf i.action, field d = field d') (h : d.Describes i) :
    d'.Describes i := by
  cases i with
  | interact gesture target =>
    cases gesture <;> simp_all [fieldsOf, Describes, Instruction.action, Gesture.action]
  | _ => simp_all [fieldsOf, Describes, Instruction.action]

theorem ofWord?_eq_some_iff {word : String} {action : Action} :
    Action.ofWord? word = some action ↔ word = action.word := by
  constructor
  · exact fun h => (Action.word_of_ofWord? h).symm
  · rintro rfl
    exact Action.ofWord?_word action

theorem toStep_eq_ok_iff {d : StepDocument} {step : Step} :
    d.toStep = .ok step ↔
      (Text.trim d.action = step.instruction.action.word ∧ d.Describes step.instruction) ∧
        (∀ n, step.name = some n ↔ Given d.name n) ∧
        step.options = ⟨d.continueOnError.getD false, d.optional.getD false, d.timeout⟩ := by
  have hname : present d.name = step.name ↔ ∀ n, step.name = some n ↔ Given d.name n := by
    constructor
    · rintro h n
      rw [← h, present_eq_some_iff]
    · exact fun h => Option.ext fun n => present_eq_some_iff.trans (h n).symm
  obtain ⟨name, i, options⟩ := step
  simp only at hname
  rw [toStep]
  cases hword : Action.ofWord? (Text.trim d.action) with
  | none =>
    simp only [bind, Except.bind, reduceCtorEq, false_iff]
    rintro ⟨⟨hact, -⟩, -⟩
    simp [hact, Action.ofWord?_word] at hword
  | some action =>
    have haction : Text.trim d.action = i.action.word ↔ i.action = action := by
      rw [← ofWord?_eq_some_iff, hword, Option.some.injEq, eq_comm]
    rw [haction, ← hname, ← instruction_eq_ok_iff]
    simp only [bind_eq_ok_iff, pure, Except.pure, Except.ok.injEq, exists_eq_left',
      Step.mk.injEq]
    constructor
    · rintro ⟨i, hi, rfl, rfl, rfl⟩
      exact ⟨hi, rfl, rfl⟩
    · rintro ⟨hi, hname, hoptions⟩
      exact ⟨i, hi, hname, rfl, hoptions.symm⟩

/-- The instruction of a document that is a step. -/
def instruction? (d : StepDocument) : Option Instruction := d.toStep.toOption.map (·.instruction)

theorem instruction?_eq_some_iff {d : StepDocument} {i : Instruction} :
    d.instruction? = some i ↔ Text.trim d.action = i.action.word ∧ d.Describes i := by
  have hsome : d.instruction? = some i ↔ ∃ step, d.toStep = .ok step ∧ step.instruction = i := by
    rw [instruction?]
    cases d.toStep <;> simp [Except.toOption]
  rw [hsome]
  constructor
  · rintro ⟨step, hstep, rfl⟩
    exact (toStep_eq_ok_iff.1 hstep).1
  · intro h
    exact ⟨⟨present d.name, i, _⟩, toStep_eq_ok_iff.2 ⟨h, fun n => present_eq_some_iff, rfl⟩, rfl⟩

/-- Documents of the action that agree on the fields have the same instruction, or none has one. -/
def Determines (fields : List (StepDocument → Option String)) (action : Action) : Prop :=
  ∀ d d' : StepDocument, Text.trim d.action = action.word → Text.trim d'.action = action.word →
    (∀ field ∈ fields, field d = field d') → d.instruction? = d'.instruction?

/-- The grammar of steps. A document is a step exactly when its action is a word of the language,
blanks around it aside, and it describes an instruction of that action; the step then has that
instruction, the name if one is given, and the options as they are written. The instruction comes
from the fields of the action alone. -/
theorem toStep_grammar :
    (∀ d : StepDocument, (∃ step, d.toStep = .ok step) ↔
      ∃ i : Instruction, Text.trim d.action = i.action.word ∧ d.Describes i) ∧
    (∀ (d : StepDocument) (step : Step), d.toStep = .ok step ↔
      (Text.trim d.action = step.instruction.action.word ∧ d.Describes step.instruction) ∧
        (∀ n, step.name = some n ↔ Given d.name n) ∧
        step.options = ⟨d.continueOnError.getD false, d.optional.getD false, d.timeout⟩) ∧
    (∀ action : Action, Determines (fieldsOf action) action) := by
  refine ⟨fun d => ⟨?_, ?_⟩, fun d step => toStep_eq_ok_iff, fun action d d' hd hd' heq => ?_⟩
  · rintro ⟨step, hstep⟩
    exact ⟨step.instruction, (toStep_eq_ok_iff.1 hstep).1⟩
  · rintro ⟨i, h⟩
    exact ⟨⟨present d.name, i, _⟩, toStep_eq_ok_iff.2 ⟨h, fun n => present_eq_some_iff, rfl⟩⟩
  · refine Option.ext fun i => ?_
    rw [instruction?_eq_some_iff, instruction?_eq_some_iff, hd, hd']
    refine and_congr_right fun hword => ?_
    obtain rfl := Action.word_injective hword
    exact ⟨Describes.congr heq, Describes.congr fun field hfield => (heq field hfield).symm⟩

/-- A document with nothing but an action. -/
def ofAction (action : Action) : StepDocument where
  action := action.word
  name := none
  target := none
  url := none
  value := none
  saveAs := none
  scenarioId := none
  filePath := none
  stateName := none
  checkUrl := none
  loginScenarioId := none
  loggedInSelector := none
  loginUrlPattern := none
  timeout := none
  continueOnError := none
  optional := none

/-- The fields that an action cannot do without or chooses between do not always determine its
instruction: the key of a `press` is its value if it has one, and an `ensure_auth` has a pattern of
its own for the address of a login page. -/
theorem not_determined_by_chosen :
    ¬ Determines [target] .press ∧
      ¬ Determines [checkUrl, url, loginScenarioId, scenarioId, stateName, loggedInSelector, target]
        .ensureAuth := by
  constructor
  · intro h
    have hkey := h { ofAction .press with target := some "#a", value := some "Tab" }
      { ofAction .press with target := some "#a" } (by decide) (by decide) (by simp)
    revert hkey
    decide
  · intro h
    have hpattern := h
      { ofAction .ensureAuth with
        checkUrl := some "/in", loginScenarioId := some "l", loginUrlPattern := some "/signin" }
      { ofAction .ensureAuth with checkUrl := some "/in", loginScenarioId := some "l" }
      (by decide) (by decide) (by simp)
    revert hpattern
    decide

end StepDocument
end Rehearsal
