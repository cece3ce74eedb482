import Rehearsal.Proofs.OtherStores
import Rehearsal.Proofs.StepGrammar
import Rehearsal.Proofs.StorePlaces
import Rehearsal.Run.InBrowser

/-! # Keys that fit

The checks on the way to a run let no name of a saved session and no project through that the store of
sessions refuses. What the store makes of the keys that are left are paths apart from each other.
-/
namespace Rehearsal

open Disk (Path)
open Disk.Path (IsEntry)

/-! ## Scenarios that were read -/

/-- A name that can be part of a path. -/
abbrev IsStateName (name : String) : Prop := Session.isSegment name = true

theorem StepDocument.Describes.isStateName {d : StepDocument} {i : Instruction} (h : d.Describes i)
    {name : String} (hname : i.stateName? = some name) : IsStateName name := by
  cases i with
  | saveSession _ | loadSession _ =>
    cases hname
    exact h.2
  | ensureLogin rule =>
    cases hname
    obtain ⟨-, -, -, hsegment, -⟩ := h
    exact hsegment
  | _ => cases hname

theorem ScenarioDocument.naming_of_stepsFrom {id : String} {index : Nat} {docs : List StepDocument}
    {steps : List Step} (h : stepsFrom id index docs = .ok steps) : Step.Naming IsStateName steps := by
  induction docs generalizing index steps with
  | nil =>
    cases h
    exact fun step hstep => absurd hstep List.not_mem_nil
  | cons doc docs ih =>
    unfold stepsFrom at h
    split at h
    · cases h
    · next first hfirst =>
      obtain ⟨rest, hrest, rfl⟩ := of_map_eq_ok h
      rintro step (_ | ⟨_, hstep⟩) name hname
      · exact (StepDocument.toStep_eq_ok_iff.mp hfirst).1.2.isStateName hname
      · exact ih hrest step hstep name hname

namespace Scenario

theorem naming_of_ofText {text : String} {s : Scenario} (h : ofText text = .ok s) :
    Step.Naming IsStateName s.steps := by
  unfold ofText at h
  split at h
  · next doc _ =>
    unfold ScenarioDocument.toScenario at h
    split at h
    · cases h
    · obtain ⟨_, -, h⟩ := StepDocument.bind_eq_ok_iff.mp h
      obtain ⟨steps, hsteps, h⟩ := StepDocument.bind_eq_ok_iff.mp h
      cases h
      exact ScenarioDocument.naming_of_stepsFrom hsteps
  · cases h

theorem naming_of_withBaseUrl {s : Scenario} {P : String → Prop} (h : Step.Naming P s.steps)
    (url : String) : Step.Naming P (s.withBaseUrl url).steps := by
  rintro step (_ | ⟨_, hstep⟩) name hname
  · cases hname
  · exact h step hstep name hname

/-- The scenarios that playing one of them can lead to. Each is loaded at a moment of its own, when the
disk may have changed. -/
inductive Reached (source : ScenarioSource) (root : Scenario) : Scenario → Prop
  | root : Reached source root root
  | load {s t : Scenario} {d : Desk} {id : String} (from_ : Reached source root s)
    (refers : id ∈ s.references) (loaded : (source.load d id).1 = .ok (some t)) :
    Reached source root t

end Scenario

namespace ScenarioSource

theorem naming_of_loadFrom {folder : Path} {d : Desk} {id : String} {s : Scenario}
    (h : (loadFrom folder d id).1 = .ok (some s)) : Step.Naming IsStateName s.steps := by
  unfold loadFrom at h
  split at h
  · cases h
  · dsimp only at h
    split at h
    · cases h
    · cases h
    · next hfile =>
      cases h
      unfold loadFile at hfile
      split at hfile
      · cases hfile
      · cases hfile
      · split at hfile
        · cases hfile
        · next htext =>
          cases hfile
          exact Scenario.naming_of_ofText htext

end ScenarioSource

/-- What is known of a run that is ready. -/
structure Prepared.Checked (config : Config) (p : Prepared) : Prop where
  source : p.source = .folder config.scenariosDir
  project : p.projectId = p.scenario.projectId.getD config.projectId
  fits : Session.isSegment p.projectId = true
  naming : Step.Naming IsStateName p.scenario.steps

theorem Prepared.naming_of_find {folder : Path} {desk : Desk} {id : String} {s : Scenario}
    (h : (find (.folder folder) desk id).1 = .ok s) : Step.Naming IsStateName s.steps := by
  unfold find at h
  split at h
  · cases h
  · cases h
  · next lines hload =>
    split at h
    · cases h
    · cases h
      exact ScenarioSource.naming_of_loadFrom (congrArg Prod.fst hload)

theorem Prepared.of_furnish {config : Config} {desk : Desk} {source : ScenarioSource} {s : Scenario}
    {p : Prepared} (h : (furnish config desk source s).1 = .ok p) :
    p.scenario = s ∧ p.source = source ∧ p.projectId = s.projectId.getD config.projectId ∧
      Session.isSegment p.projectId = true := by
  unfold furnish at h
  split at h
  · cases h
  · next projectId hproject =>
    split at h
    · cases h
    · cases h
      simp only [projectOf, Session.checkSegment] at hproject
      by_cases hfits : Session.isSegment (s.projectId.getD config.projectId) = true
      · simp only [hfits, ↓reduceIte, Except.ok.injEq] at hproject
        subst hproject
        exact ⟨rfl, rfl, rfl, hfits⟩
      · simp only [hfits, Bool.false_eq_true, ↓reduceIte, reduceCtorEq] at hproject

theorem checked_of_prepare {config : Config} {desk : Desk} {request : Request} {p : Prepared}
    (h : (prepare config desk request).1 = .ok p) : p.Checked config := by
  unfold prepare at h
  dsimp only at h
  split at h
  · cases h
  · next s lines hfind =>
    have hs := Prepared.naming_of_find (congrArg Prod.fst hfind)
    obtain ⟨hscenario, hsource, hproject, hfits⟩ := Prepared.of_furnish h
    refine ⟨hsource, hscenario ▸ hproject, hfits, hscenario ▸ ?_⟩
    cases request.baseUrl with
    | none => exact hs
    | some url => exact Scenario.naming_of_withBaseUrl hs url

theorem Prepared.Checked.naming_of_reached {config : Config} {p : Prepared} (h : p.Checked config)
    {s : Scenario} (hreached : Scenario.Reached p.source p.scenario s) :
    Step.Naming IsStateName s.steps := by
  cases hreached with
  | root => exact h.naming
  | load _ _ loaded =>
    rw [h.source] at loaded
    exact ScenarioSource.naming_of_loadFrom loaded

/-! ## Paths of keys -/

theorem Disk.Path.IsEntry.isAbsolute_join {name : String} (h : IsEntry name) (p : Path) :
    isAbsolute (p.join name) = isAbsolute p := by
  by_cases hp : p = ""
  · subst hp
    have hempty : isAbsolute "" = false := by decide
    simp [join, not_isAbsolute h.isName.2, hempty]
  · obtain ⟨rest, hrest⟩ := join_eq_append (p := p) h.isName.2
    rw [hrest, isAbsolute_append hp]

theorem Disk.Path.IsEntry.components_join {name : String} (h : IsEntry name) (p : Path) :
    components (p.join name) = components p ++ [name] := by
  have hdot := h.noDot
  unfold components
  rw [h.names_join, h.isAbsolute_join]
  cases names p with
  | nil => simp [hdot]
  | cons first rest =>
    simp only [List.cons_append]
    split
    · simp [List.filter_append, hdot]
    · rw [← List.cons_append, List.filter_append]
      simp [hdot]

namespace SessionStore

/-- The path leads to a file in a folder that stands right below the root. -/
structure Stands (root : Path) (folder file : String) (p : Path) : Prop where
  entries : IsEntry folder ∧ IsEntry file
  absolute : p.isAbsolute = root.isAbsolute
  components : p.components = root.components ++ [folder, file]
  place : ∀ d : Disk, d.place (root.join folder) = d.place root ++ [folder] ∧
    d.place p = d.place (root.join folder) ++ [file]

/-- The paths lead to different places on every disk, and are different by their components alone. -/
structure Apart (p q : Path) : Prop where
  components : p.components ≠ q.components
  place : ∀ d : Disk, d.place p ≠ d.place q

variable {root : Path} {key key' : Session.Key}

theorem checkKey_of_isSegment (hproject : Session.isSegment key.project = true)
    (hstate : Session.isSegment key.state = true) : checkKey key = .ok () := by
  simp [checkKey, Session.checkSegment, hproject, hstate]

theorem Stands.of_join {folder file : String} (hfolder : IsEntry folder) (hfile : IsEntry file)
    (root : Path) : Stands root folder file ((root.join folder).join file) where
  entries := ⟨hfolder, hfile⟩
  absolute := by rw [hfile.isAbsolute_join, hfolder.isAbsolute_join]
  components := by rw [hfile.components_join, hfolder.components_join, List.append_assoc]; rfl
  place d := ⟨Disk.place_join hfolder d root, Disk.place_join hfile d _⟩

theorem Stands.apart {folder folder' file file' : String} {p q : Path} (h : Stands root folder file p)
    (h' : Stands root folder' file' q) (hne : ¬ (folder = folder' ∧ file = file')) : Apart p q where
  components heq := by
    rw [h.components, h'.components] at heq
    exact hne (by simpa using heq)
  place d heq := by
    rw [(h.place d).2, (h'.place d).2, (h.place d).1, (h'.place d).1] at heq
    exact hne (by simpa using heq)

theorem stands_file (h : checkKey key = .ok ()) (root : Path) :
    Stands root key.project (key.state ++ ".json") (fileOf root key) :=
  .of_join (isEntry_project h) (isEntry_file h) root

theorem stands_draft (h : checkKey key = .ok ()) {tag : String} (htag : '/' ∉ tag.toList) (root : Path) :
    Stands root key.project ("." ++ key.state ++ "." ++ tag ++ ".tmp") (draftOf root key tag) :=
  .of_join (isEntry_project h) (isEntry_draft h htag) root

theorem apart_files (h : checkKey key = .ok ()) (h' : checkKey key' = .ok ()) (hne : key ≠ key')
    (root : Path) : Apart (fileOf root key) (fileOf root key') := by
  refine (stands_file h root).apart (stands_file h' root) ?_
  rintro ⟨hproject, hfile⟩
  exact hne (Session.Key.mk.injEq .. ▸ ⟨hproject, state_of_fileName hfile⟩)

theorem apart_draft (h : checkKey key = .ok ()) (h' : checkKey key' = .ok ()) {tag : String}
    (htag : '/' ∉ tag.toList) (root : Path) : Apart (fileOf root key) (draftOf root key' tag) :=
  (stands_file h root).apart (stands_draft h' htag root) fun hsame => fileName_ne_draftName _ _ _ hsame.2

end SessionStore

/-! ## Keys of a run -/

open SessionStore (checkKey fileOf draftOf Stands Apart)

/-- The key that a step asks the store for in a run. -/
structure Prepared.Fits (config : Config) (p : Prepared) (step : Step) (name : String) : Prop where
  asked : ∀ {π : Type} (host : DevTools.Host π) (desk : Desk) (sink : ArtifactSink) (listening : Bool)
    (epoch : Calendar.Timestamp), let stage := Run.stageOf host config desk p sink listening epoch
    Login.key stage name = ⟨p.projectId, name⟩ ∧
      ∀ d scope task, stage.task d scope step = .ok task → task.deed.stateName? = some name
  taken : checkKey ⟨p.projectId, name⟩ = .ok ()
  file : Stands config.sessionsDir p.projectId (name ++ ".json")
    (fileOf config.sessionsDir ⟨p.projectId, name⟩)

theorem Prepared.Checked.fits_of_reached {config : Config} {p : Prepared} (h : p.Checked config)
    {s : Scenario} (hreached : Scenario.Reached p.source p.scenario s) {step : Step}
    (hstep : step ∈ s.steps) {name : String} (hname : step.instruction.stateName? = some name) :
    p.Fits config step name := by
  have hkey : checkKey ⟨p.projectId, name⟩ = .ok () :=
    SessionStore.checkKey_of_isSegment h.fits (h.naming_of_reached hreached step hstep name hname)
  refine ⟨fun host desk sink listening epoch => ⟨rfl, fun d scope task htask => ?_⟩, hkey,
    SessionStore.stands_file hkey _⟩
  rw [Bench.stateName?_of_task htask, hname]

/-- A run asks for no key but those that the store takes. -/
theorem Prepared.Checked.run_withSessions {config : Config} {p : Prepared} (h : p.Checked config)
    {π : Type} (host : DevTools.Host π) (desk : Desk) (sink : ArtifactSink) (listening : Bool)
    (epoch : Calendar.Timestamp) {store : SessionStore}
    (same : store.SameOn (fun key => checkKey key = .ok () ∧ key.project = p.projectId)
      (.files config.sessionsDir)) (runId : String) :
    let stage := Run.stageOf host config desk p sink listening epoch
    Run.run (stage.withSessions store) p.scenario runId = Run.run stage p.scenario runId := by
  intro stage
  -- Scenarios are loaded in the run at any time, and each is checked when it is.
  have hasked : ∀ key, stage.Asks IsStateName key → checkKey key = .ok () ∧ key.project = p.projectId := by
    rintro ⟨project, state⟩ ⟨rfl, hstate⟩
    exact ⟨SessionStore.checkKey_of_isSegment h.fits hstate, rfl⟩
  refine Run.run_withSessions (same.mono hasked) ?_ h.naming runId
  intro d id s hload
  change (p.source.load d id).1 = .ok (some s) at hload
  rw [h.source] at hload
  exact ScenarioSource.naming_of_loadFrom hload

/-- In a run that is ready the keys are checked. Whatever step it can come to, the store takes the key
that the step asks for, and what a store does with any other key is of no matter to the run. Different
keys have different files, and no draft of a file is the file of a key. -/
theorem keys_of_prepare {config : Config} {desk : Desk} {request : Request} {p : Prepared}
    (h : (prepare config desk request).1 = .ok p) :
    p.projectId = p.scenario.projectId.getD config.projectId ∧
    (∀ {s}, Scenario.Reached p.source p.scenario s → ∀ step ∈ s.steps, ∀ name,
      step.instruction.stateName? = some name → p.Fits config step name) ∧
    (∀ {π : Type} (host : DevTools.Host π) desk sink listening epoch store,
      store.SameOn (fun key => checkKey key = .ok () ∧ key.project = p.projectId)
        (.files config.sessionsDir) →
      ∀ runId, let stage := Run.stageOf host config desk p sink listening epoch
        Run.run (stage.withSessions store) p.scenario runId = Run.run stage p.scenario runId) ∧
    ∀ root key key', checkKey key = .ok () → checkKey key' = .ok () →
      (key ≠ key' → Apart (fileOf root key) (fileOf root key')) ∧
        ∀ tag : String, '/' ∉ tag.toList → Apart (fileOf root key) (draftOf root key' tag) := by
  have hchecked := checked_of_prepare h
  refine ⟨hchecked.project, fun hreached step hstep name => hchecked.fits_of_reached hreached hstep,
    fun host desk sink listening epoch store same runId =>
      hchecked.run_withSessions host desk sink listening epoch same runId,
    fun root key key' hkey hkey' => ⟨fun hne => SessionStore.apart_files hkey hkey' hne root,
      fun tag htag => SessionStore.apart_draft hkey hkey' htag root⟩⟩

/-- Two scenarios, the second of which saves a session without giving it a name. -/
def savingDesk : Desk :=
  let file (text : String) : Disk.Node := .file text.toUTF8.data.toList
  .ofDisk ⟨[], [(["s"], .folder), (["s", "scenarios"], .folder),
    (["s", "scenarios", "a.json"], file
      "\x7b\"id\":\"a\",\"steps\":[\x7b\"action\":\"run_scenario\",\"value\":\"b\"\x7d]\x7d"),
    (["s", "scenarios", "b.json"], file
      "\x7b\"id\":\"b\",\"steps\":[\x7b\"action\":\"save_auth_state\"\x7d]\x7d")]⟩

def savingConfig : Config := { Config.default with dataDir := "s", projectId := "p" }

theorem keys_of_prepare_saving :
    ∃ p, (prepare savingConfig savingDesk ⟨"a", none⟩).1 = .ok p ∧
      p.Fits savingConfig (.ofInstruction (.saveSession "default")) "default" := by
  have hprepared : (prepare savingConfig savingDesk ⟨"a", none⟩).1.toOption.map (·.scenario.references) =
      some ["b"] := by decide +kernel
  have hloaded : ((ScenarioSource.folder savingConfig.scenariosDir).load savingDesk "b").1 =
      .ok (some ⟨"b", none, none, none, [.ofInstruction (.saveSession "default")]⟩) := by decide +kernel
  cases h : (prepare savingConfig savingDesk ⟨"a", none⟩).1 with
  | error o =>
    rw [h] at hprepared
    cases hprepared
  | ok p =>
    rw [h] at hprepared
    have hreferences : p.scenario.references = ["b"] := Option.some.inj hprepared
    have hrefers : "b" ∈ p.scenario.references := by simp [hreferences]
    rw [← (checked_of_prepare h).source] at hloaded
    exact ⟨p, rfl, (keys_of_prepare h).2.1 (.load .root hrefers hloaded) _ (List.mem_singleton_self _) _ rfl⟩

end Rehearsal
