import ScriptHost.Proofs.FileTree.Effects
import ScriptHost.Proofs.Library.OpenFile
import ScriptHost.Proofs.Library.SoundFiles

/-!
What opening and creating files does to the world, for every way of opening. A call gives void and
changes nothing, or it gives a new handle at the start of what the path leads to; and then the tree
differs at most by an empty file at the path.
-/

namespace ScriptHost.Library

open Files

variable {r : Registry} {w now : World} {path name : String} {access : Access}
  {ref : HandleRef} {node : NodeId} {files changed : FileTree}
  {change weaker : NodeId → FileTree → Prop}

/-- Where a path can be opened: for reading it has to lead somewhere, and for writing there has to
be a regular file, or room for one. -/
def CanOpen (files : FileTree) (path : String) : Access → Prop
  | .read => ∃ node, files.openExisting path = .ok node
  | _ => files.fileExists path ∨ files.CanBeMade path

/-- Every path that leads to another node than the given one leads there in both trees. -/
def SameElsewhere (node : NodeId) (files changed : FileTree) : Prop :=
  ∀ text other, other ≠ node →
    (changed.openExisting text = .ok other ↔ files.openExisting text = .ok other)

/-- A handle right after it was opened on a path. It is told to be open and at its start, it knows
the path, and it is equal to no handle that was there before. -/
structure NewHandle (r : Registry) (path : String) (before : Store) (ref : HandleRef)
    (w : World) : Prop where
  check : (r.call "fileio" "fCheckHandle" [.filehandle ref]).run w = (.ok (.integer 1), w)
  position : (r.call "fileio" "fGetPos" [.filehandle ref]).run w = (.ok (.integer 0), w)
  path_eq : (w.store.handle ref).path = path
  differs : ∀ other, before.HoldsHandle other →
    w.store.equal (.filehandle ref) (.filehandle other) = false

/-- How a call that opens a path can end: with void and without any change, or with a new handle
on what the path leads to then. The relation tells how the files may have changed. -/
inductive Outcome (r : Registry) (now : World) (path : String) (access : Access)
    (call : Host Value) (change : NodeId → FileTree → Prop) : Prop
  | void (cannot : ¬CanOpen now.files path access) (run : call.run now = (.ok .void, now))
  | handle {ref : HandleRef} {node : NodeId} {later : World}
    (can : CanOpen now.files path access)
    (run : call.run now = (.ok (.filehandle ref), later))
    (new : NewHandle r path now.store ref later)
    (leads : later.files.openExisting path = .ok node)
    (there : access ≠ .read → ∀ stamp,
      (r.call "fileio" "fExists" [.string stamp path]).run later = (.ok (.integer 1), later))
    (effect : change node later.files)
    (others : SameElsewhere node now.files later.files)

/-! ### Files -/

/-- How an attempt to open a path can end, which is what an outcome comes from. -/
inductive Attempt (files : FileTree) (path : String) (access : Access)
    (change : NodeId → FileTree → Prop) : Option Stream × FileTree → Prop
  | fails (cannot : ¬CanOpen files path access) : Attempt files path access change (none, files)
  | opens {node : NodeId} {changed : FileTree} (can : CanOpen files path access)
    (leads : changed.openExisting path = .ok node)
    (isFile : access ≠ .read → (changed.content? node).isSome) (effect : change node changed)
    (others : SameElsewhere node files changed) :
    Attempt files path access change (some (streamOn node access), changed)

theorem Attempt.imp {result : Option Stream × FileTree}
    (attempt : Attempt files path access change result)
    (implies : ∀ node changed, change node changed → weaker node changed) :
    Attempt files path access weaker result := by
  cases attempt with
  | fails cannot => exact .fails cannot
  | opens can leads isFile effect others =>
    exact .opens can leads isFile (implies _ _ effect) others

theorem SameElsewhere.refl (node : NodeId) (files : FileTree) : SameElsewhere node files files :=
  fun _ _ _ => .rfl

theorem attempt_openToRead (files : FileTree) (path : String) :
    Attempt files path .read (fun _ changed => changed = files) (openToRead files path) := by
  unfold openToRead
  split
  next node leads =>
    exact .opens ⟨node, leads⟩ leads (fun other => (other rfl).elim) rfl (.refl node files)
  next failed =>
    refine .fails fun ⟨node, leads⟩ => ?_
    rw [failed] at leads
    cases leads

theorem canOpen_of_writes (writes : access ≠ .read) :
    CanOpen files path access ↔ files.fileExists path ∨ files.CanBeMade path := by
  cases access with
  | read => exact (writes rfl).elim
  | _ => rfl

theorem attempt_openToWrite (sound : files.Sound) (path : String) (writes : access ≠ .read)
    (truncate : Bool) :
    Attempt files path access
      (fun node changed => files.MakesFile path node changed ∨
        if truncate then files.EmptiesFile path node changed else changed = files)
      (openToWrite files path access truncate) := by
  have can_iff : CanOpen files path access ↔
      ∃ node changed, files.openOrCreate path truncate = .ok (node, changed) :=
    (canOpen_of_writes writes).trans (sound.exists_openOrCreate_iff truncate).symm
  rw [openToWrite]
  cases opened : files.openOrCreate path truncate with
  | ok result =>
    obtain ⟨node, changed⟩ := result
    have can := can_iff.2 ⟨node, changed, opened⟩
    have leads := (FileTree.openOrCreate_spec opened).1
    obtain ⟨made, _⟩ | ⟨_, isFile, found⟩ := sound.openOrCreate_effect opened
    · have here : (changed.content? node).isSome := by
        rw [made.content?_eq, if_pos rfl, Option.isSome_some]
      exact .opens can leads (fun _ => here) (.inl made)
        fun text other differ => made.openExisting_eq_ok_iff differ text
    · refine .opens can leads (fun _ => ?_) (.inr found) ?_
      · split at found
        next => rw [found.content?_eq, if_pos rfl, Option.isSome_some]
        next => rwa [found]
      · split at found
        next =>
          intro text other _
          rw [found.names.openExisting_eq]
        next =>
          rw [found]
          exact .refl node files
  | error cause =>
    refine .fails fun can => ?_
    obtain ⟨node, changed, works⟩ := can_iff.1 can
    cases opened.symm.trans works

/-! ### Calls -/

section Calls

variable (provides : ∀ f ∈ standard, f ∈ r.entries)
include provides

/-- The calls that take a path and answer yes or no. -/
theorem run_of_path (index : Nat) {labels : List String} (body : String → Host Bool)
    (here : registrations[index]? = some ⟨descriptor name labels, .ofBody [.string] body⟩)
    (stamp : Stamp) {answer : Bool} {later : World}
    (run : (body path).run w = (.ok answer, later)) :
    (r.call "fileio" name [.string stamp path]).run w = (.ok (.ofBool answer), later) := by
  have carried : Arguments.Carried [.string] [.string stamp path] (path, ()) :=
    ⟨⟨stamp, rfl⟩, rfl⟩
  exact run_of_carried provides index [.string] body here carried run

theorem run_fileExists (stamp : Stamp) (w : World) :
    (r.call "fileio" "fExists" [.string stamp path]).run w =
      (.ok (.ofBool (w.files.fileExists path)), w) :=
  run_of_path provides 6 fileExists rfl stamp rfl

theorem run_directoryExists (stamp : Stamp) (w : World) :
    (r.call "fileio" "dExists" [.string stamp path]).run w =
      (.ok (.ofBool (w.files.directoryExists path)), w) :=
  run_of_path provides 0 directoryExists rfl stamp rfl

theorem newHandle_of_opens (store : Store) (node : NodeId) (access : Access) (files : FileTree) :
    let new := store.newHandle { path, stream := some (streamOn node access) }
    NewHandle r path store new.1 { store := new.2, files } := by
  intro new
  let w : World := { store := new.2, files }
  have opened : Opened store w.store new.1 path := opened_newHandle store path _
  have stream : (w.store.handle new.1).stream = some (streamOn node access) := by
    rw [Store.handle_newHandle, if_pos rfl]
  have checked := run_checkHandle provides new.1 w
  rw [opened.isOpen] at checked
  have told := run_getPosition_of_stream provides stream
  have start : Integer.ofNat (streamOn node access).position = 0 := Integer.ofNat_eq rfl
  rw [start] at told
  refine ⟨checked, told, opened.path_eq, fun other held => equal_filehandle_of_ne ?_ w.store⟩
  rintro rfl
  exact opened.fresh held

theorem outcome_of_attempt {call : Host Value} {step : FileTree → Option Stream × FileTree}
    {explain : Abort → Abort}
    (runs : call = ((Host.changeFiles step >>= handleOn path) >>= Host.give).mapAbort explain)
    (attempt : Attempt w.files path access change (step w.files)) :
    Outcome r w path access call change := by
  have run := run_opening path w step explain
  rw [← runs] at run
  generalize step w.files = result at run attempt
  cases attempt with
  | fails cannot => exact .void cannot run
  | opens can leads isFile effect others =>
    refine .handle can run (newHandle_of_opens provides _ _ _ _) leads (fun writes stamp => ?_)
      effect others
    rw [run_fileExists provides, FileTree.fileExists_iff.2 ⟨_, leads, isFile writes⟩]
    rfl

end Calls

/-- What `fOpen` and `fCreate` do, in any world that a run comes to from a sound tree. In an unknown
mode nothing is opened. To read changes nothing. The modes that write make an empty file where none
is, and keep the bytes of one that is there. To create leaves an empty file at the path, which is
made or has lost its bytes. -/
theorem opening_effect (provides : ∀ f ∈ standard, f ∈ r.entries) {start : World}
    (sound : start.files.Sound) {actions : List Action}
    (run : Action.performAll r start actions = now) (stamp : Stamp) (path : String) :
    (∀ modeStamp mode, mode ∉ ["r", "rw", "w"] →
      (r.call "fileio" "fOpen" [.string stamp path, .string modeStamp mode]).run now =
        (.ok .void, now)) ∧
    (∀ modeStamp, Outcome r now path .read
      (r.call "fileio" "fOpen" [.string stamp path, .string modeStamp "r"])
      fun _ files => files = now.files) ∧
    (∀ modeStamp, Outcome r now path .readWrite
      (r.call "fileio" "fOpen" [.string stamp path, .string modeStamp "rw"])
      fun node files => now.files.MakesFile path node files ∨ files = now.files) ∧
    (∀ modeStamp, Outcome r now path .write
      (r.call "fileio" "fOpen" [.string stamp path, .string modeStamp "w"])
      fun node files => now.files.MakesFile path node files ∨ files = now.files) ∧
    Outcome r now path .readWrite (r.call "fileio" "fCreate" [.string stamp path])
      fun node files => files.content? node = some .empty ∧
        (now.files.MakesFile path node files ∨ now.files.EmptiesFile path node files) := by
  have sound : now.files.Sound := run ▸ Action.sound_performAll provides sound actions
  refine ⟨fun modeStamp mode unknown => ?unknown, fun modeStamp => ?read,
    fun modeStamp => ?readWrite, fun modeStamp => ?write, ?create⟩
  case unknown =>
    rw [call_openFile provides, openFile, run_opening]
    have none : openInMode now.files path mode = (none, now.files) := by
      unfold openInMode
      split <;> simp_all
    rw [none]
  case read =>
    exact outcome_of_attempt provides (call_openFile provides path stamp modeStamp "r")
      (attempt_openToRead now.files path)
  case readWrite =>
    exact outcome_of_attempt provides (call_openFile provides path stamp modeStamp "rw")
      (attempt_openToWrite sound path (nofun : Access.readWrite ≠ .read) false)
  case write =>
    exact outcome_of_attempt provides (call_openFile provides path stamp modeStamp "w")
      (attempt_openToWrite sound path (nofun : Access.write ≠ .read) false)
  case create =>
    have attempt := attempt_openToWrite sound path (nofun : Access.readWrite ≠ .read) true
    refine outcome_of_attempt provides (call_createFile provides path stamp)
      (attempt.imp fun node files effect => ⟨?_, effect⟩)
    rcases effect with made | emptied
    · rw [made.content?_eq, if_pos rfl]
    · rw [FileTree.EmptiesFile.content?_eq emptied, if_pos rfl]

/-- In a tree that holds nothing but its root, a file is made in it. -/
theorem opening_effect_newFile :
    let w : World := { store := {}, files := FileTree.bare }
    w.files.Sound ∧ Action.performAll standardRegistry w [] = w ∧
    (standardRegistry.call "fileio" "fOpen" [.string ⟨0⟩ "f", .string ⟨1⟩ "a"]).run w =
      (.ok .void, w) ∧
    ∃ ref later, (standardRegistry.call "fileio" "fCreate" [.string ⟨0⟩ "f"]).run w =
        (.ok (.filehandle ref), later) ∧
      (standardRegistry.call "fileio" "fExists" [.string ⟨0⟩ "f"]).run later =
        (.ok (.integer 1), later) := by
  intro w
  have started : Action.performAll standardRegistry w [] = w := rfl
  have room : CanOpen w.files "f" .readWrite :=
    .inr ⟨.ofText "f", FileTree.root, "f", rfl, rfl, by decide, rfl⟩
  obtain ⟨unknown, -, -, -, outcome⟩ :=
    opening_effect provides_standardRegistry FileTree.sound_bare started ⟨0⟩ "f"
  refine ⟨FileTree.sound_bare, started, unknown ⟨1⟩ "a" (by decide), ?_⟩
  cases outcome with
  | void cannot => exact absurd room cannot
  | handle _ run _ _ there => exact ⟨_, _, run, there nofun ⟨0⟩⟩

end ScriptHost.Library
