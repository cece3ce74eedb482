import Rehearsal.Run.InBrowser

/-! # Mild failures

The stores of sessions, the sinks of artifacts and the resolvers of resources fail in their own ways,
none of which is fatal to a run.
-/
namespace Rehearsal

variable {σ α : Type}

def ResourceResolver.Mild (r : ResourceResolver) : Prop :=
  ∀ {d project id e}, r.resolve d project id = .error e → e.isFatal = false

structure SessionStore.Mild (store : SessionStore) : Prop where
  get : ∀ {d key e}, store.get d key = .error e → e.isFatal = false
  put : ∀ {d key session e}, (store.put d key session).1 = .error e → e.isFatal = false

def ArtifactSink.Mild (sink : ArtifactSink) : Prop :=
  ∀ {d name png e}, (sink.storeScreenshot d name png).1 = .error e → e.isFatal = false

/-- Nothing that a stage works with fails fatally, the scenarios aside. -/
structure Stage.Mild (stage : Stage σ) : Prop where
  resources : stage.resources.Mild
  sessions : stage.sessions.Mild
  sink : stage.sink.Mild

theorem mild_of_error {e e' : Failure} (h : (.error e' : Except Failure α) = .error e)
    (he : e'.isFatal = false) : e.isFatal = false := by
  rw [← Except.error.inj h]
  exact he

theorem ResourceResolver.mild_resolveIn {root : Disk.Path} {d : Desk} {project id : String} {e : Failure}
    (h : resolveIn root d project id = .error e) : e.isFatal = false := by
  unfold resolveIn at h
  simp only at h
  cases hread : d.disk.readText ((root.join project).join "metadata.json") with
  | error f =>
    rw [hread] at h
    exact mild_of_error h rfl
  | ok text =>
    rw [hread] at h
    simp only at h
    cases hentries : Json.readText (Json.Reading.list Entry.read) text with
    | error reason =>
      rw [hentries] at h
      exact mild_of_error h rfl
    | ok entries =>
      rw [hentries] at h
      simp only at h
      cases hfind : entries.find? (·.id == id) with
      | none =>
        rw [hfind] at h
        exact mild_of_error h rfl
      | some entry =>
        rw [hfind] at h
        simp only at h
        split at h
        · cases h
        · exact mild_of_error h rfl

theorem ResourceResolver.mild_folder (root : Disk.Path) : (folder root).Mild := by
  intro d project id e h
  simp only [folder] at h
  exact mild_resolveIn h

theorem ResourceResolver.mild_fixed (entries : List (String × Disk.Path)) : (fixed entries).Mild := by
  intro d project id e h
  simp only [fixed] at h
  split at h
  · cases h
  · exact mild_of_error h rfl

theorem SessionStore.mild_memory : memory.Mild where
  get := by
    intro d key e h
    cases h
  put := by
    intro d key session e h
    cases h

theorem SessionStore.mild_checkKey {key : Session.Key} {e : Failure} (h : checkKey key = .error e) :
    e.isFatal = false := by
  unfold checkKey at h
  split at h
  · exact mild_of_error h rfl
  split at h
  · exact mild_of_error h rfl
  · cases h

theorem SessionStore.mild_getFile {root : Disk.Path} {d : Desk} {key : Session.Key} {e : Failure}
    (h : getFile root d key = .error e) : e.isFatal = false := by
  unfold getFile at h
  cases hkey : checkKey key with
  | error e' =>
    rw [hkey] at h
    exact mild_of_error h (mild_checkKey hkey)
  | ok u =>
    rw [hkey] at h
    simp only [bind, Except.bind] at h
    split at h
    · cases h
    · exact mild_of_error h rfl
    split at h
    · exact mild_of_error h rfl
    · cases h

theorem SessionStore.mild_putFile {root : Disk.Path} {d : Desk} {key : Session.Key}
    {session : SavedSession} {e : Failure} (h : (putFile root d key session).1 = .error e) :
    e.isFatal = false := by
  unfold putFile at h
  cases hkey : checkKey key with
  | error e' =>
    rw [hkey] at h
    exact mild_of_error h (mild_checkKey hkey)
  | ok u =>
    rw [hkey] at h
    simp only at h
    split at h
    · exact mild_of_error h rfl
    split at h
    · exact mild_of_error h rfl
    split at h
    · exact mild_of_error h rfl
    · cases h

theorem SessionStore.mild_files (root : Disk.Path) : (files root).Mild where
  get := by
    intro d key e h
    simp only [files] at h
    exact mild_getFile h
  put := by
    intro d key session e h
    simp only [files] at h
    exact mild_putFile h

theorem ArtifactSink.mild_memory : memory.Mild := by
  intro d name png e h
  cases h

theorem ArtifactSink.mild_folder (dir : Disk.Path) : (folder dir).Mild := by
  intro d name png e h
  simp only [folder, write] at h
  split at h
  · cases h
  · exact mild_of_error h rfl

/-- The stage of a run in a browser is mild. -/
theorem Run.mild_stageOf {π : Type} (host : DevTools.Host π) (config : Config) (desk : Desk)
    (prepared : Prepared) (dir : Disk.Path) (listening : Bool) (epoch : Calendar.Timestamp) :
    (stageOf host config desk prepared (.folder dir) listening epoch).Mild where
  resources := ResourceResolver.mild_folder config.resourcesDir
  sessions := SessionStore.mild_files config.sessionsDir
  sink := ArtifactSink.mild_folder dir

end Rehearsal
