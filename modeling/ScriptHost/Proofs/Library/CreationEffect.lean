import ScriptHost.Proofs.FileTree.Directories
import ScriptHost.Proofs.Library.OpenEffect

/-!
What creating a directory by path does to the world, and what the answer tells: whether there is a
directory at the path afterwards. The empty path is the exception. It names nothing, and yet a
directory is said to be created.
-/

namespace ScriptHost.Library

open Files

variable {r : Registry}

/-- How an attempt to create a directory ends, with the answer. Directories may have been added,
also when the last one could not be. If so, there is no room for one on the path any more, unless it
ends in `.`, which is only found in a directory that is there already. -/
structure CreationOutcome (now : World) (path : String) (answer : Bool) (later : World) : Prop where
  store_eq : later.store = now.store
  adds : now.files.AddsDirectories later.files
  leads : ∀ text id, now.files.openExisting text = .ok id → later.files.openExisting text = .ok id
  full : answer = false → ∀ p, Path.accept path = .ok p → p.parts.getLast? ≠ some "." →
    ¬later.files.HasRoom p

theorem creationOutcome (now : World) (path : String) :
    CreationOutcome now path (now.files.createDirectories path).1
      { now with files := (now.files.createDirectories path).2 } where
  store_eq := rfl
  adds := FileTree.addsDirectories_createDirectories now.files path
  leads _ _ := (FileTree.addsDirectories_createDirectories now.files path).openExisting_eq_ok
  full refused p accepted ending := by
    rw [FileTree.createDirectories_of_accept accepted] at refused ⊢
    exact FileTree.not_hasRoom_ensureDirectories ending refused

theorem run_createDirectory (provides : ∀ f ∈ standard, f ∈ r.entries) (stamp : Stamp)
    (now : World) (path : String) :
    (r.call "fileio" "dCreate" [.string stamp path]).run now =
      (.ok (.ofBool (now.files.createDirectories path).1),
        { now with files := (now.files.createDirectories path).2 }) :=
  run_of_path provides 1 createDirectory rfl stamp (Host.run_changeFiles now _)

/-- What `dCreate` does, in any world. It adds directories and takes nothing away, and the same call
right after it gives the same answer and changes nothing. There is a directory at the path
afterwards if and only if the answer is 1, with one exception: the empty path, where there never is
one, always gets that answer. -/
theorem creation_effect (provides : ∀ f ∈ standard, f ∈ r.entries) (now : World) (stamp : Stamp)
    (path : String) :
    ∃ answer later,
      (r.call "fileio" "dCreate" [.string stamp path]).run now = (.ok (.ofBool answer), later) ∧
      CreationOutcome now path answer later ∧
      (∀ again, (r.call "fileio" "dCreate" [.string again path]).run later =
        (.ok (.ofBool answer), later)) ∧
      (path ≠ "" → ∀ asked, (r.call "fileio" "dExists" [.string asked path]).run later =
        (.ok (.ofBool answer), later)) ∧
      (path = "" → answer = true ∧ later = now ∧
        ∀ asked, (r.call "fileio" "dExists" [.string asked path]).run later =
          (.ok (.integer 0), later)) := by
  refine ⟨_, _, run_createDirectory provides stamp now path, creationOutcome now path,
    fun again => ?again, fun named asked => ?told, fun empty => ?empty⟩
  case again =>
    rw [run_createDirectory provides]
    dsimp only
    rw [FileTree.createDirectories_again]
  case told =>
    rw [run_directoryExists provides, FileTree.createDirectories_truthful _ named]
  case empty =>
    subst empty
    rw [FileTree.createDirectories_empty]
    refine ⟨rfl, rfl, fun asked => ?_⟩
    rw [run_directoryExists provides, FileTree.directoryExists_empty]
    rfl

/-- In a tree that holds nothing but its root, two directories are created at once. -/
theorem creation_effect_newDirectories :
    let w : World := { store := {}, files := FileTree.bare }
    ∃ later, (standardRegistry.call "fileio" "dCreate" [.string ⟨0⟩ "a/b"]).run w =
        (.ok (.integer 1), later) ∧
      CreationOutcome w "a/b" true later ∧
      (standardRegistry.call "fileio" "dExists" [.string ⟨1⟩ "a/b"]).run later =
        (.ok (.integer 1), later) := by
  intro w
  obtain ⟨answer, later, run, outcome, _, told, _⟩ :=
    creation_effect provides_standardRegistry w ⟨0⟩ "a/b"
  have made : (w.files.createDirectories "a/b").1 = true := by
    have accepted : Path.accept "a/b" = .ok (.ofText "a/b") := rfl
    have up : (Path.ofText "a/b").parent? = some ⟨false, ["a"], false⟩ := by decide
    have above : (FileTree.bare.ensureDirectories ⟨false, ["a"], false⟩) =
        (true, (FileTree.bare.addNode FileTree.root "a" (.directory FileTree.root ∅ false)).2) :=
      FileTree.ensureDirectories_of_ok rfl
    rw [FileTree.createDirectories_of_accept accepted,
      FileTree.ensureDirectories_of_parent rfl up (by decide), above]
    rfl
  have answered : answer = true := by
    have same := (run_createDirectory provides_standardRegistry ⟨0⟩ w "a/b").symm.trans run
    rw [made] at same
    cases answer with
    | true => rfl
    | false => cases (Prod.mk.inj same).1
  subst answered
  exact ⟨later, run, outcome, told (by decide) ⟨1⟩⟩

/-- The empty path: a directory is said to be created, and then there is none. -/
theorem creation_emptyPath :
    let w : World := { store := {}, files := FileTree.bare }
    (standardRegistry.call "fileio" "dCreate" [.string ⟨0⟩ ""]).run w = (.ok (.integer 1), w) ∧
      (standardRegistry.call "fileio" "dExists" [.string ⟨1⟩ ""]).run w =
        (.ok (.integer 0), w) := by
  intro w
  refine ⟨?_, run_directoryExists provides_standardRegistry ⟨1⟩ w⟩
  rw [run_createDirectory provides_standardRegistry, FileTree.createDirectories_empty]
  rfl

end ScriptHost.Library
