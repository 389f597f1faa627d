import ScriptHost.Proofs.FileTree.Removal
import ScriptHost.Proofs.Library.OpenEffect

/-!
What removing files and directories by path does to the world, and what the answers tell. An answer
of 1 means that something is gone or was never there, and of 0 that nothing has changed; but a path
can lead nowhere without being told to be free.
-/

namespace ScriptHost

namespace Library

open Files

variable {r : Registry} {w now later : World} {path : String} {files : FileTree}

/-- Scripts are told that there is neither a file nor a directory at the path. -/
structure NothingAt (r : Registry) (w : World) (path : String) : Prop where
  file : ∀ stamp, (r.call "fileio" "fExists" [.string stamp path]).run w = (.ok (.integer 0), w)
  directory : ∀ stamp,
    (r.call "fileio" "dExists" [.string stamp path]).run w = (.ok (.integer 0), w)

/-- All objects are the same, and all handles are on the same bytes. -/
structure SameHandles (w later : World) : Prop where
  store_eq : later.store = w.store
  onFile_iff : ∀ ref stream bytes, later.OnFile ref stream bytes ↔ w.OnFile ref stream bytes

theorem SameHandles.refl (w : World) : SameHandles w w :=
  ⟨rfl, fun _ _ _ => .rfl⟩

theorem sameHandles_of_content?_eq (same : ∀ id, files.content? id = w.files.content? id) :
    SameHandles w { w with files } := by
  have bytes (id : NodeId) : files.bytes? id = w.files.bytes? id := by
    rw [FileTree.bytes?, same, FileTree.bytes?]
  refine ⟨rfl, fun ref stream data => ⟨fun on => ?_, fun on => ?_⟩⟩
  · exact ⟨on.stream_eq, (bytes stream.node).symm.trans on.bytes_eq⟩
  · exact ⟨on.stream_eq, (bytes stream.node).trans on.bytes_eq⟩

/-- How an attempt to remove a file can end, with the answer. Nothing changes unless there was a
regular file at the path, which has lost its entry then. -/
inductive FileOutcome (now : World) (path : String) : Bool → World → Prop
  | removed {id : NodeId} {files : FileTree} (isFile : (now.files.content? id).isSome)
    (lost : now.files.LosesEntry path id files) : FileOutcome now path true { now with files }
  | missing (failed : now.files.openExisting path = .error .notFound) :
    FileOutcome now path true now
  | directory {id : NodeId} (leads : now.files.openExisting path = .ok id)
    (isDirectory : now.files.isDirectory id) : FileOutcome now path false now
  | blocked {cause : FileError} (failed : now.files.openExisting path = .error cause)
    (other : cause ≠ .notFound) : FileOutcome now path false now

/-- How an attempt to remove a directory can end, with the answer. Nothing changes unless there was
a directory without entries at the path, which has lost its own entry then. -/
inductive DirectoryOutcome (now : World) (path : String) : Bool → World → Prop
  | removed {id : NodeId} {files : FileTree} (named : now.files.NamesEmptyDirectory path)
    (empty : now.files.IsEmptyDirectory id) (lost : now.files.LosesEntry path id files) :
    DirectoryOutcome now path true { now with files }
  | refused (other : ¬now.files.NamesEmptyDirectory path) : DirectoryOutcome now path false now

theorem FileOutcome.sameHandles {answer : Bool} (outcome : FileOutcome now path answer later) :
    SameHandles now later := by
  cases outcome with
  | removed _ lost => exact sameHandles_of_content?_eq lost.content?_eq
  | _ => exact .refl now

theorem DirectoryOutcome.sameHandles {answer : Bool}
    (outcome : DirectoryOutcome now path answer later) : SameHandles now later := by
  cases outcome with
  | removed _ _ lost => exact sameHandles_of_content?_eq lost.content?_eq
  | refused => exact .refl now

theorem ofBool_eq_zero_iff {b : Bool} : Value.ofBool b = .integer 0 ↔ b = false := by
  have differ : (1 : Integer) ≠ 0 := by decide
  cases b with
  | false => exact iff_of_true rfl rfl
  | true => exact iff_of_false (fun same => differ (Value.integer.inj same)) nofun

section Calls

variable (provides : ∀ f ∈ standard, f ∈ r.entries)
include provides

/-- Where scripts are told that there is nothing, the path leads nowhere. -/
theorem nothingAt_iff (sound : w.files.Sound) :
    NothingAt r w path ↔ ∃ cause, w.files.openExisting path = .error cause := by
  constructor
  · intro nothing
    have noFile := (run_fileExists provides ⟨0⟩ w).symm.trans (nothing.file ⟨0⟩)
    have noDirectory := (run_directoryExists provides ⟨0⟩ w).symm.trans (nothing.directory ⟨0⟩)
    rw [Prod.mk.injEq, Except.ok.injEq, ofBool_eq_zero_iff] at noFile noDirectory
    cases leads : w.files.openExisting path with
    | error cause => exact ⟨cause, rfl⟩
    | ok id =>
      rcases sound.isDirectory_or_isFile leads with isDirectory | isFile
      · cases noDirectory.1.symm.trans (FileTree.directoryExists_iff.2 ⟨id, leads, isDirectory⟩)
      · cases noFile.1.symm.trans (FileTree.fileExists_iff.2 ⟨id, leads, isFile⟩)
  · rintro ⟨cause, failed⟩
    refine ⟨fun stamp => ?_, fun stamp => ?_⟩
    · have no : w.files.fileExists path = false := by
        refine eq_false_of_ne_true fun there => ?_
        obtain ⟨id, leads, _⟩ := FileTree.fileExists_iff.1 there
        cases failed.symm.trans leads
      rw [run_fileExists provides, no]
      rfl
    · have no : w.files.directoryExists path = false := by
        refine eq_false_of_ne_true fun there => ?_
        obtain ⟨id, leads, _⟩ := FileTree.directoryExists_iff.1 there
        cases failed.symm.trans leads
      rw [run_directoryExists provides, no]
      rfl

theorem run_removeFile (sound : now.files.Sound) (stamp : Stamp) (path : String) :
    ∃ answer later, (r.call "fileio" "fUnlink" [.string stamp path]).run now =
      (.ok (.ofBool answer), later) ∧ FileOutcome now path answer later ∧ later.files.Sound := by
  have removal := sound.fileRemoval path
  have body : (removeFile path).run now = _ := Host.run_changeFiles now _
  have run := run_of_path provides 3 removeFile rfl stamp body
  cases ends : now.files.removeFile path with
  | ok files =>
    rw [ends] at run removal
    cases removal with
    | removed isFile lost => exact ⟨true, _, run, .removed isFile lost, sound.removeFile ends⟩
  | error cause =>
    rw [ends] at run removal
    refine ⟨decide (cause = .notFound), now, run, ?_, sound⟩
    cases removal with
    | directory leads isDirectory present =>
      rw [decide_eq_false present]
      exact .directory leads isDirectory
    | nowhere failed =>
      by_cases missing : cause = .notFound
      · subst missing
        exact .missing failed
      · rw [decide_eq_false missing]
        exact .blocked failed missing

theorem run_removeDirectory (sound : now.files.Sound) (stamp : Stamp) (path : String) :
    ∃ answer later, (r.call "fileio" "dUnlink" [.string stamp path]).run now =
      (.ok (.ofBool answer), later) ∧ DirectoryOutcome now path answer later ∧
        later.files.Sound := by
  have body : (removeDirectory path).run now = _ := Host.run_changeFiles now _
  have run := run_of_path provides 2 removeDirectory rfl stamp body
  cases ends : now.files.removeDirectory path with
  | ok files =>
    rw [ends] at run
    obtain ⟨id, empty, lost⟩ := FileTree.removeDirectory_effect ends
    exact ⟨true, _, run, .removed (FileTree.exists_removeDirectory_iff.1 ⟨files, ends⟩) empty lost,
      sound.removeDirectory ends⟩
  | error cause =>
    rw [ends] at run
    refine ⟨false, now, run, .refused fun named => ?_, sound⟩
    obtain ⟨files, removed⟩ := FileTree.exists_removeDirectory_iff.2 named
    cases ends.symm.trans removed

end Calls

theorem FileOutcome.openExisting_eq {answer : Bool} (outcome : FileOutcome now path answer later)
    (answered : answer = true) : later.files.openExisting path = .error .notFound := by
  cases outcome with
  | removed _ lost => exact lost.gone
  | missing failed => exact failed
  | _ => cases answered

/-- What `fUnlink` and `dUnlink` do, in any world that a run comes to from a sound tree. With an
answer of 1 there is nothing at the path. For a file this is so with an answer of 0 as well if the
path leads nowhere for another reason than that something on it is missing: a regular file is in the
way, the path or a name in it is too long, or there is a NUL in it. Whatever is removed, the bytes
of open files stay. -/
theorem removal_effect (provides : ∀ f ∈ standard, f ∈ r.entries) {start : World}
    (sound : start.files.Sound) {actions : List Action}
    (run : Action.performAll r start actions = now) (stamp : Stamp) (path : String) :
    (∃ answer later,
      (r.call "fileio" "fUnlink" [.string stamp path]).run now = (.ok (.ofBool answer), later) ∧
      FileOutcome now path answer later ∧ SameHandles now later ∧
      (answer = true → NothingAt r later path) ∧
      (NothingAt r later path → answer = true ∨
        ∃ cause, now.files.openExisting path = .error cause ∧ cause ≠ .notFound)) ∧
    ∃ answer later,
      (r.call "fileio" "dUnlink" [.string stamp path]).run now = (.ok (.ofBool answer), later) ∧
      DirectoryOutcome now path answer later ∧ SameHandles now later ∧
      (answer = true → NothingAt r later path) := by
  have sound : now.files.Sound := run ▸ Action.sound_performAll provides sound actions
  constructor
  · obtain ⟨answer, later, run, outcome, sound⟩ := run_removeFile provides sound stamp path
    refine ⟨answer, later, run, outcome, outcome.sameHandles, fun answered => ?_, fun nothing => ?_⟩
    · exact (nothingAt_iff provides sound).2 ⟨_, outcome.openExisting_eq answered⟩
    · cases outcome with
      | removed | missing => exact .inl rfl
      | directory leads =>
        obtain ⟨cause, failed⟩ := (nothingAt_iff provides sound).1 nothing
        cases failed.symm.trans leads
      | blocked failed other => exact .inr ⟨_, failed, other⟩
  · obtain ⟨answer, later, run, outcome, sound⟩ := run_removeDirectory provides sound stamp path
    refine ⟨answer, later, run, outcome, outcome.sameHandles, fun answered => ?_⟩
    cases outcome with
    | removed _ _ lost => exact (nothingAt_iff provides sound).2 ⟨_, lost.gone⟩
    | refused => cases answered

/-- A file that three handles are on loses its name, and they are on it still. -/
theorem removal_effect_openFile :
    ({ store := {}, files := FileTree.bare } : World).files.Sound ∧
    Action.performAll standardRegistry { store := {}, files := FileTree.bare } threeHandles =
      sharedFile ∧
    ∃ later, (standardRegistry.call "fileio" "fUnlink" [.string ⟨0⟩ "f"]).run sharedFile =
        (.ok (.integer 1), later) ∧
      NothingAt standardRegistry later "f" ∧ later.OnFile ⟨0⟩ ⟨⟨1⟩, 0, .readWrite⟩ [] := by
  refine ⟨FileTree.sound_bare, performAll_threeHandles, ?_⟩
  have leads : sharedFile.files.openExisting "f" = .ok ⟨1⟩ := rfl
  obtain ⟨⟨answer, later, call, outcome, same, nothing, _⟩, _⟩ := removal_effect
    provides_standardRegistry FileTree.sound_bare performAll_threeHandles ⟨0⟩ "f"
  have answered : answer = true := by
    cases outcome with
    | removed | missing => rfl
    | directory again isDirectory =>
      cases leads.symm.trans again
      cases isDirectory
    | blocked failed => cases leads.symm.trans failed
  subst answered
  exact ⟨later, call, nothing rfl, (same.onFile_iff ..).2 ⟨rfl, rfl⟩⟩

/-- A path that goes on behind a regular file: nothing is there, but the answer is 0. -/
theorem removal_behindFile :
    (standardRegistry.call "fileio" "fUnlink" [.string ⟨0⟩ "f/x"]).run sharedFile =
        (.ok (.integer 0), sharedFile) ∧
      NothingAt standardRegistry sharedFile "f/x" := by
  have sound : sharedFile.files.Sound :=
    performAll_threeHandles ▸
      Action.sound_performAll provides_standardRegistry FileTree.sound_bare threeHandles
  have failed : sharedFile.files.openExisting "f/x" = .error .notDirectory := rfl
  refine ⟨?_, (nothingAt_iff provides_standardRegistry sound).2 ⟨_, failed⟩⟩
  exact run_of_path provides_standardRegistry 3 removeFile rfl ⟨0⟩ rfl

end Library

end ScriptHost
