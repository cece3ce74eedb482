import Rehearsal.Proofs.Exactness
import Rehearsal.Proofs.Mild
import Rehearsal.Proofs.WholeRun

/-! # The rehearsal and the guard of a run

While a run goes on, the scenarios that are being played are on a stack, and none of them is played
again inside itself. Where the references were rehearsed this never comes up: the stack is a way through
the graph of references, which has no circle.
-/
namespace Rehearsal

open Preflight (Acyclic Clear Load Loads ManyLoaded OwnNames Refers Trail scenarioAt?_of_load
  scenarioAt?_root)
open Timed (Maintains Whatever)

variable {σ : Type} {stage : Stage σ}

/-- The value of a `wait` was no number once it was filled in, in the step itself or in one of a
scenario that it has played. -/
inductive WaitFault (load : Load) : Step → DocumentFault → Prop
  | own {step : Step} {value : String} {scope : Scope} {fault : DocumentFault}
    (wait : step.instruction = .wait value)
    (noMillis : StepDocument.waitMillis (scope.fill value) = .error fault) : WaitFault load step fault
  | inner {step inner : Step} {id : String} {scenario : Scenario} {fault : DocumentFault}
    (plays : step.instruction.reference? = some id) (loaded : (load id).1 = .ok (some scenario))
    (mem : inner ∈ scenario.steps) (waits : WaitFault load inner fault) : WaitFault load step fault

/-- A failure of a step that the rehearsal could not foresee: no circle, and of documents only the
value of a `wait`. -/
def Unforeseen (load : Load) (step : Step) (e : Failure) : Prop :=
  (∀ chain, e ≠ .cyclicReference chain) ∧ ∀ fault, e = .document fault → WaitFault load step fault

def UnforeseenIn (load : Load) (id : String) (e : Failure) : Prop :=
  (∀ chain, e ≠ .cyclicReference chain) ∧ ∀ fault, e = .document fault →
    ∃ scenario inner, (load id).1 = .ok (some scenario) ∧ inner ∈ scenario.steps ∧
      WaitFault load inner fault

/-- Whatever a run stores, the source answers as it does now. -/
def Stage.Steady (stage : Stage σ) (d : Desk) : Prop :=
  ∀ d', stage.Reaches d d' → ∀ id, (stage.scenarios.load d' id).1 = (stage.scenarios.load d id).1

theorem mild_ne_cyclic {e : Failure} (h : e.isFatal = false) : ∀ chain, e ≠ .cyclicReference chain := by
  rintro chain rfl
  cases h

theorem mild_ne_document {e : Failure} (h : e.isFatal = false) : ∀ fault, e ≠ .document fault := by
  rintro fault rfl
  cases h

theorem unforeseen_of_mild {load : Load} {step : Step} {e : Failure} (h : e.isFatal = false) :
    Unforeseen load step e :=
  ⟨mild_ne_cyclic h, fun fault he => absurd he (mild_ne_document h fault)⟩

theorem unforeseenIn_of_mild {load : Load} {id : String} {e : Failure} (h : e.isFatal = false) :
    UnforeseenIn load id e :=
  ⟨mild_ne_cyclic h, fun fault he => absurd he (mild_ne_document h fault)⟩

theorem UnforeseenIn.step {load : Load} {id : String} {e : Failure} (h : UnforeseenIn load id e)
    {step : Step} (hstep : step.instruction.reference? = some id) : Unforeseen load step e := by
  refine ⟨h.1, ?_⟩
  intro fault he
  obtain ⟨scenario, inner, hload, hmem, hfault⟩ := h.2 fault he
  exact .inner hstep hload hmem hfault

theorem Blames.mono {P P' : Failure → Prop} (hP : ∀ e, P e → P' e) {r : Except Failure Report}
    (h : Blames P r) : Blames P' r := by
  cases r with
  | ok report => exact fun e he => hP e (h e he)
  | error e => exact hP e h

theorem Stage.excuses_unforeseen (mild : stage.Mild) (load : Load) :
    stage.Excuses (Unforeseen load) where
  tolerates := fun _ =>
    { mild := unforeseen_of_mild
      get := fun h => unforeseen_of_mild (mild.sessions.get h)
      put := fun h => unforeseen_of_mild (mild.sessions.put h)
      screenshot := fun h => unforeseen_of_mild (mild.sink h) }
  task := by
    intro d scope step e h
    rcases Bench.task_error h with ⟨id, hresolve⟩ | ⟨value, fault, hwait, hfault, rfl⟩
    · exact unforeseen_of_mild (mild.resources hresolve)
    · refine ⟨?_, ?_⟩
      · rintro chain ⟨⟩
      · rintro fault' ⟨⟩
        exact .own hwait hfault

/-- What holds all along a run that began at a desk with some steps played: the desk was reached from
there, and the steps played since then are excused. -/
def Stage.Underway (stage : Stage σ) (A : Step → Failure → Prop) (d : Desk) (before : List Turn)
    (s : World σ) : Prop :=
  stage.Reaches d s.desk ∧ ∃ new, s.turns = before ++ new ∧ ∀ t ∈ new, t.Excused A

theorem Stage.lasting_underway (A : Step → Failure → Prop) (d : Desk) (before : List Turn) :
    stage.Lasting A (stage.Underway A d before) where
  page := fun _ h => h
  say := fun _ h => h
  scope := fun _ h => h
  begun := fun _ h => h
  tell := fun _ h => h
  screenshot := fun name png h => ⟨.screenshot h.1 name png, h.2⟩
  session := fun key session h => ⟨.session h.1 key session, h.2⟩
  close := by
    rintro s t ⟨hreach, new, hturns, hnew⟩ ht
    refine ⟨hreach, new ++ [t], ?_, ?_⟩
    · rw [World.close, hturns, List.append_assoc]
    · intro u hu
      rcases List.mem_append.mp hu with hu | hu
      · exact hnew u hu
      · rw [List.mem_singleton.mp hu]
        exact ht

section

variable {d : Desk} {root : Scenario} {before : List Turn} (mild : stage.Mild)
  (steady : stage.Steady d) (own : OwnNames (stage.scenarios.load d))
  (clear : Clear (stage.scenarios.load d) root root.id)

include mild steady own clear

/-- A scenario that the last one on the stack refers to is played without a circle, as long as there is
fuel for one more scenario than can be loaded. -/
theorem Play.maintains_nested {bound : Nat}
    (hbound : ∀ n, ManyLoaded (stage.scenarios.load d) n → n ≤ bound) {fuel : Nat} {stack : CallStack}
    {last id : String} (htrail : Trail (stage.scenarios.load d) root stack.ids last)
    (href : Refers (stage.scenarios.load d) root last id)
    (hfuel : bound + 2 ≤ fuel + stack.ids.length) (depth : Nat) :
    Maintains (stage.Underway (Unforeseen (stage.scenarios.load d)) d before)
      (Blames (UnforeseenIn (stage.scenarios.load d) id)) (nested stage fuel id stack depth) := by
  have hoff : id ∉ stack.ids := fun hon => (htrail.isCircle href hon).not_acyclic clear.acyclic
  induction fuel generalizing stack last id depth with
  | zero =>
    -- The scenarios on the stack are different ones of the source, too few to use up the fuel.
    have hmany : ManyLoaded (stage.scenarios.load d) stack.ids.tail.length :=
      ⟨_, htrail.distinct.tail, rfl, htrail.loaded⟩
    have hle := hbound _ hmany
    rw [List.length_tail] at hle
    omega
  | succ fuel ih =>
    have hloads : Loads (stage.scenarios.load d) id :=
      clear.loads_of_reaches (Relation.TransGen.tail' htrail.reaches href)
    refine maintains_enter (Stage.lasting_underway ..).toStable ?_ ?_ ?_ ?_
    · intro hon
      exact absurd (List.contains_iff_mem.mp hon) hoff
    · intro s e hs he
      obtain ⟨found, hfound⟩ := hloads
      rw [steady _ hs.1 id, hfound] at he
      cases he
    · exact unforeseenIn_of_mild rfl
    · intro s t hs hload
      rw [steady _ hs.1 id] at hload
      have hname := own hload
      have hne : id ≠ root.id := fun h => hoff (h ▸ htrail.mem_root)
      -- The stack with the new scenario is a way through the graph again.
      have htrail' : Trail (stage.scenarios.load d) root (stack.push id).ids id :=
        htrail.append href hoff hload
      refine (maintains_stepsFrom (Stage.lasting_underway ..) (Stage.excuses_unforeseen mild _)
        ?_ 0).mono ?_
      · intro step hstep other hother
        have href' : Refers (stage.scenarios.load d) root id other := by
          refine ⟨t, scenarioAt?_of_load hne hload, ?_⟩
          exact List.mem_filterMap.mpr ⟨step, hstep, hother⟩
        have hoff' : other ∉ (stack.push id).ids :=
          fun hon => (htrail'.isCircle href' hon).not_acyclic clear.acyclic
        have hfuel' : bound + 2 ≤ fuel + (stack.push id).ids.length := by
          simp only [CallStack.push, List.length_append, List.length_singleton]
          omega
        exact (ih htrail' href' hfuel' (depth + 1) hoff').mono fun r hr =>
          hr.mono fun e he => he.step hother
      · intro r hr e he
        obtain ⟨step, hstep, hunforeseen, -⟩ := hr e he
        exact ⟨hunforeseen.1, fun fault hfault => ⟨t, step, hload, hstep, hunforeseen.2 fault hfault⟩⟩

theorem Play.maintains_runner {id : String} (href : Refers (stage.scenarios.load d) root root.id id)
    (depth : Nat) :
    Maintains (stage.Underway (Unforeseen (stage.scenarios.load d)) d before)
      (Blames (UnforeseenIn (stage.scenarios.load d) id))
      (runner stage id (.root root.id) depth) := by
  refine .bind (R := fun d' => stage.Reaches d d') (.read fun _ s hs => hs.1) fun d' hd' => ?_
  have hbound : ∀ n, ManyLoaded (stage.scenarios.load d) n → n ≤ (stage.scenarios.ids d').length := by
    intro n hn
    refine hn.le ?_
    intro id s h
    rw [← steady d' hd' id] at h
    exact stage.scenarios.listed h
  exact Play.maintains_nested mild steady own clear hbound .start href (by simp [depthLimit])
    depth

theorem Play.maintains_rehearsed :
    Maintains (stage.Underway (Unforeseen (stage.scenarios.load d)) d before) Whatever
      (stepsFrom stage (runner stage) root.id (.root root.id) 0 0 root.steps) := by
  refine (maintains_stepsFrom (Stage.lasting_underway ..) (Stage.excuses_unforeseen mild _)
    ?_ 0).whatever
  intro step hstep id hid
  have href : Refers (stage.scenarios.load d) root root.id id :=
    ⟨root, scenarioAt?_root .., List.mem_filterMap.mpr ⟨step, hstep, hid⟩⟩
  exact (Play.maintains_runner mild steady own clear href 0).mono fun r hr =>
    hr.mono fun e he => he.step hid

end

/-- Two stages that differ at most in what only the playing of steps has a use for: all of the browser
but its recording, the sessions, the screenshots, the resources and the selectors. -/
structure Stage.Alike (stage stage' : Stage σ) : Prop where
  scenarios : stage'.scenarios = stage.scenarios
  projectId : stage'.settings.projectId = stage.settings.projectId
  finishRecording : stage'.browser.finishRecording = stage.browser.finishRecording
  storeResult : stage'.sink.storeResult = stage.sink.storeResult
  location : stage'.sink.location = stage.sink.location
  listening : stage'.listening = stage.listening
  epoch : stage'.epoch = stage.epoch

namespace Run

theorem opened_of_alike {stage' : Stage σ} (h : stage.Alike stage') (scenario : Scenario)
    (runId : String) (s : World σ) : opened stage' scenario runId s = opened stage scenario runId s := by
  unfold opened Stage.heard
  rw [h.listening]

theorem conclude_of_alike {stage' : Stage σ} (h : stage.Alike stage') (scenario : Scenario)
    (runId : String) (started : Nat) (ending : Ending) :
    conclude stage' scenario runId started ending = conclude stage scenario runId started ending := by
  have hrecording : finishRecording stage' = finishRecording stage := by
    unfold finishRecording
    rw [h.finishRecording]
  have hstore : store stage' = store stage := by
    funext record
    unfold store
    rw [h.storeResult]
  have htell : stage'.tell = stage.tell := by
    funext e
    unfold Stage.tell
    rw [h.listening]
  unfold conclude
  rw [hrecording, hstore, htell, h.projectId, h.location, h.epoch]

end Run

theorem Stage.mild_bare (scenarios : List Scenario) : (Stage.bare scenarios).Mild where
  resources := ResourceResolver.mild_fixed []
  sessions := SessionStore.mild_memory
  sink := ArtifactSink.mild_memory

theorem Stage.steady_bare (scenarios : List Scenario) (d : Desk) :
    (Stage.bare scenarios).Steady d := by
  intro d' _ id
  rfl

namespace Run

open Preflight (nowhere ownNames_memory referring)

def waiting : Scenario :=
  ⟨"a", none, none, none, [.ofInstruction (.wait "\x7b\x7bn\x7d\x7d")]⟩

end Run

end Rehearsal
