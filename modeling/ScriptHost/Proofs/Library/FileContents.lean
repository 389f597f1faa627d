import Mathlib.Data.List.Induction
import ScriptHost.Proofs.Library.FileFootprint
import ScriptHost.Proofs.Library.HandleLifetime

/-!
File contents and handles over a run. An open handle is on the file, and has the rights, that the
call that gave it asked for, and what a step changes is in its footprint; so the bytes of a file
change only by a write through a handle with the right to, or by `fCreate` on a path to the file.
-/

namespace ScriptHost

namespace Footprint

variable {p q : Footprint} {w later : World}

/-- The footprint that leaves nothing out. -/
def everything : Footprint :=
  { touched := Set.univ, opened := Set.univ, changed := Set.univ }

theorem Covers.mono (covers : p.Covers w later) (touched : p.touched ⊆ q.touched)
    (opened : p.opened ⊆ q.opened) (changed : p.changed ⊆ q.changed) : q.Covers w later where
  held := covers.held
  added ref held := (covers.added ref held).imp_right fun inside => opened inside
  handle_eq ref outside := covers.handle_eq ref fun inside => outside (touched inside)
  stream := covers.stream
  keeps := covers.keeps.mono changed

theorem Covers.widen (covers : p.Covers w later) : everything.Covers w later :=
  covers.mono (Set.subset_univ _) (Set.subset_univ _) (Set.subset_univ _)

end Footprint

namespace Library

open Files

/-! ### Opening, reading and writing -/

section Calls

variable {r : Registry} (provides : ∀ f ∈ standard, f ∈ r.entries) {name : String}
  {args : List Value}
include provides

theorem call_of_carried {ρ : Type} [ToValue ρ] (index : Nat) {labels : List String}
    (params : List ParamType) (body : Signature (Host ρ) params)
    (here : registrations[index]? = some ⟨descriptor name labels, .ofBody params body⟩)
    {arguments : Arguments params} (carried : Arguments.Carried params args arguments) :
    r.call "fileio" name args =
      (Signature.apply body arguments >>= Host.give).mapAbort
        (r.explain (descriptor name labels)) :=
  (call_at provides index here args).trans (Registry.callEntry_ofBody_of_carried carried)

/-- A call whose run has a result hands it to the script. -/
theorem run_of_carried {ρ : Type} [ToValue ρ] (index : Nat) {labels : List String}
    (params : List ParamType) (body : Signature (Host ρ) params)
    (here : registrations[index]? = some ⟨descriptor name labels, .ofBody params body⟩)
    {arguments : Arguments params} (carried : Arguments.Carried params args arguments)
    {w later : World} {result : ρ}
    (run : (Signature.apply body arguments).run w = (.ok result, later)) :
    (r.call "fileio" name args).run w =
      (.ok (ToValue.toValue result later.store).1,
        { later with store := (ToValue.toValue result later.store).2 }) :=
  run_call_of_run (fun f member => provides f (List.mem_append_right _ member)) index params body
    here carried run

variable (path : String)

theorem call_openFile (stamp modeStamp : Stamp) (mode : String) :
    r.call "fileio" "fOpen" [.string stamp path, .string modeStamp mode] =
      (openFile path mode >>= Host.give).mapAbort
        (r.explain (descriptor "fOpen" ["path", "mode"])) := by
  have carried : Arguments.Carried [.string, .string]
      [.string stamp path, .string modeStamp mode] (path, mode, ()) :=
    ⟨⟨stamp, rfl⟩, ⟨modeStamp, rfl⟩, rfl⟩
  rw [call_of_carried provides 5 [.string, .string] openFile rfl carried]
  rfl

theorem call_createFile (stamp : Stamp) :
    r.call "fileio" "fCreate" [.string stamp path] =
      (createFile path >>= Host.give).mapAbort (r.explain (descriptor "fCreate" ["path"])) := by
  have carried : Arguments.Carried [.string] [.string stamp path] (path, ()) :=
    ⟨⟨stamp, rfl⟩, rfl⟩
  rw [call_of_carried provides 7 [.string] createFile rfl carried]
  rfl

variable {path}

/-- A call that opens a path changes the files so that the path leads to the stream it gives. -/
theorem call_of_openingCall {access : Access} (asked : OpeningCall path access name args) :
    ∃ step explain, r.call "fileio" name args =
        ((Host.changeFiles step >>= handleOn path) >>= Host.give).mapAbort explain ∧
      ∀ files, OpensAs path access (step files) := by
  cases asked with
  | read stamp modeStamp =>
    exact ⟨_, _, call_openFile provides path stamp modeStamp "r",
      fun files => (openToRead_spec files path).1⟩
  | readWrite stamp modeStamp =>
    exact ⟨_, _, call_openFile provides path stamp modeStamp "rw",
      fun files => (openToWrite_spec files path ..).1⟩
  | write stamp modeStamp =>
    exact ⟨_, _, call_openFile provides path stamp modeStamp "w",
      fun files => (openToWrite_spec files path ..).1⟩
  | create stamp =>
    exact ⟨_, _, call_createFile provides path stamp,
      fun files => (openToWrite_spec files path ..).1⟩

end Calls

/-- The calls that write bytes through a handle. -/
inductive WriteCall (s : Store) (ref : HandleRef) : List UInt8 → String → List Value → Prop
  | bytes {array : ArrayRef} {data : List UInt8} (items : s.items array = data.map .byte) :
    WriteCall s ref data "fWrite" [.filehandle ref, .array array]
  | line (lineStamp stamp : Stamp) (line : String) {encoding : String} {known : LineEncoding}
    (named : LineEncoding.ofName? encoding = some known) :
    WriteCall s ref (known.encodeLine line) "fWriteLine"
      [.filehandle ref, .string lineStamp line, .string stamp encoding]

theorem bytesFrom_bytes (index : Nat) (data : List UInt8) :
    bytesFrom index (data.map .byte) = .ok data := by
  induction data generalizing index with
  | nil => rfl
  | cons b rest ih =>
    rw [List.map_cons, bytesFrom]
    exact congrArg (Except.map (b :: ·)) (ih (index + 1))

section Streams

variable {r : Registry} (provides : ∀ f ∈ standard, f ∈ r.entries) {w : World} {ref : HandleRef}
  {stream : Stream} {data : List UInt8} {name : String} {args : List Value}
include provides

theorem run_writeCall (call : WriteCall w.store ref data name args) {wrote : Bool} {later : World}
    (run : (writeAll name ref data).run w = (.ok wrote, later)) :
    (r.call "fileio" name args).run w = (.ok (.ofBool wrote), later) := by
  cases call with
  | @bytes array data items =>
    have carried : Arguments.Carried [.filehandle, .array]
        [.filehandle ref, .array array] (ref, array, ()) := ⟨rfl, rfl, rfl⟩
    have body : (writeBytes ref array).run w = (.ok wrote, later) := by
      rw [writeBytes, Host.run_bind, Host.run_read]
      dsimp only
      rw [items, bytesFrom_bytes]
      exact run
    exact run_of_carried provides 15 [.filehandle, .array] writeBytes rfl carried body
  | @line lineStamp stamp line encoding known named =>
    have carried : Arguments.Carried [.filehandle, .string, .string]
        [.filehandle ref, .string lineStamp line, .string stamp encoding]
        (ref, line, encoding, ()) := ⟨rfl, ⟨lineStamp, rfl⟩, ⟨stamp, rfl⟩, rfl⟩
    have body : (writeLine ref line encoding).run w = (.ok wrote, later) := by
      rw [writeLine, named]
      exact run
    exact run_of_carried provides 16 [.filehandle, .string, .string] writeLine rfl carried body

/-- Without the right to write nothing is written. -/
theorem run_writeCall_of_not_canWrite (call : WriteCall w.store ref data name args)
    (here : (w.store.handle ref).stream = some stream) (readOnly : ¬stream.access.canWrite)
    (nonempty : data ≠ []) : (r.call "fileio" name args).run w = (.ok (.integer 0), w) := by
  have run : (writeAll name ref data).run w = (.ok false, w) := by
    rw [run_writeAll, here]
    dsimp only
    rw [Stream.write?, if_neg nonempty, if_neg readOnly]
  exact run_writeCall provides call run

/-- With the right to write, the bytes stand at the position of the handle. -/
theorem run_writeCall_of_canWrite (call : WriteCall w.store ref data name args)
    (here : (w.store.handle ref).stream = some stream) (canWrite : stream.access.canWrite)
    (nonempty : data ≠ []) {content : FileContent}
    (held : w.files.content? stream.node = some content) :
    (r.call "fileio" name args).run w = (.ok (.integer 1),
      { store := w.store.setStream ref (some (stream.advance data.length))
        files := w.files.setContent stream.node (content.overwrite stream.position data) }) := by
  have run : (writeAll name ref data).run w = (.ok true,
      { store := w.store.setStream ref (some (stream.advance data.length))
        files := w.files.setContent stream.node (content.overwrite stream.position data) }) := by
    rw [run_writeAll, here]
    dsimp only
    rw [Stream.write?, if_neg nonempty, if_pos canWrite, held]
    rfl
  exact run_writeCall provides call run

theorem run_readBytes_of_not_canRead
    (here : (w.store.handle ref).stream = some stream) (writeOnly : ¬stream.access.canRead)
    {count : Integer} (positive : 0 < count.val) :
    (r.call "fileio" "fRead" [.filehandle ref, .integer count]).run w = (.ok .void, w) := by
  have carried : Arguments.Carried [.filehandle, .integer]
      [.filehandle ref, .integer count] (ref, count, ()) := ⟨rfl, rfl, rfl⟩
  have read : (readBytes ref count).run w = (.ok none, w) := by
    have unread : stream.read? w.files count.val.toNat = none := by
      rw [Stream.read?, if_neg (by omega), Stream.rest?, if_neg writeOnly]
      rfl
    rw [readBytes, run_streamOf_bind, here]
    dsimp only
    rw [if_neg (by omega), Host.run_bind, Host.run_readFiles, unread]
    rfl
  exact run_of_carried provides 14 [.filehandle, .integer] readBytes rfl carried read

end Streams

end Library

namespace Action

open Library

variable {r : Registry} {start w : World} {actions : List Action} {ref : HandleRef} {node : NodeId}
  {access : Access} {stream : Stream}

/-- Whether scripts can do it. A host may make handles besides that have no stream. -/
def IsScripted : Action → Prop
  | newHandle handle => handle.stream = none
  | _ => True

/-- The handle that an action is done to. -/
def target : Action → Option HandleRef
  | call _ _ (.filehandle ref :: _) => some ref
  | close ref => some ref
  | _ => none

def footprint (r : Registry) (w : World) : Action → Footprint
  | call f _ args => Library.footprint r f args w
  | close ref => { touched := {ref}, opened := ∅, changed := ∅ }
  | newHandle handle => { touched := ∅, opened := {(w.store.newHandle handle).1}, changed := ∅ }
  | copy _ => { touched := ∅, opened := ∅, changed := ∅ }

/-- Somewhere in the run a call opened the node and gave the handle, with the rights asked for. -/
def Obtained (r : Registry) (start : World) (actions : List Action) (ref : HandleRef)
    (node : NodeId) (access : Access) : Prop :=
  ∃ earlier f provided args later, actions = earlier ++ call f provided args :: later ∧
    f.descriptor.space = "fileio" ∧
    Opens r f.descriptor.name args (performAll r start earlier) ref node access

/-- The actions that may change the bytes of a file after a run: a write through an open handle that
was obtained on the file with the right to write, and making a file anew at a path that leads to
it. -/
inductive MayChange (r : Registry) (start : World) (actions : List Action) (node : NodeId) :
    Action → Prop
  | write {f : Registration} (provided : f ∈ standard) {ref : HandleRef} (rest : List Value)
    {access : Access} (key : f.key ∈ [("fileio", "fWrite"), ("fileio", "fWriteLine")])
    (isOpen : ((performAll r start actions).store.handle ref).isOpen)
    (obtained : Obtained r start actions ref node access) (canWrite : access.canWrite) :
    MayChange r start actions node (call f provided (.filehandle ref :: rest))
  | create {f : Registration} (provided : f ∈ standard) (stamp : Stamp) {path : String}
    (key : f.key = ("fileio", "fCreate"))
    (leads : (performAll r start actions).files.openExisting path = .ok node) :
    MayChange r start actions node (call f provided [.string stamp path])

theorem performAll_append (earlier later : List Action) :
    performAll r start (earlier ++ later) = performAll r (performAll r start earlier) later :=
  List.foldl_append

theorem Obtained.append (obtained : Obtained r start actions ref node access)
    (more : List Action) : Obtained r start (actions ++ more) ref node access := by
  obtain ⟨earlier, f, provided, args, later, rfl, space, opens⟩ := obtained
  refine ⟨earlier, f, provided, args, later ++ more, ?_, space, opens⟩
  rw [List.append_assoc, List.cons_append]

section Provided

variable (provides : ∀ f ∈ standard, f ∈ r.entries)
include provides

theorem covers_perform (action : Action) (w : World) :
    (action.footprint r w).Covers w (action.perform r w) := by
  cases action with
  | call f provided args => exact staysWithin provided r (provides f provided) args w
  | close ref => exact .closeStream (Set.mem_singleton ref)
  | newHandle handle => exact .newHandle handle (Set.mem_singleton _) (.refl _ _)
  | copy copying => exact .of_handles_eq (copying.handles_run w.store) (.refl _ _)

theorem covers_performAll (actions : List Action) (w : World) :
    Footprint.everything.Covers w (performAll r w actions) := by
  induction actions generalizing w with
  | nil => exact .refl _ w
  | cons action rest ih => exact (covers_perform provides action w).widen.trans (ih _)

omit provides in
theorem target_of_touched {action : Action} (touched : ref ∈ (action.footprint r w).touched) :
    action.target = some ref := by
  cases action with
  | call f provided args =>
    obtain ⟨rest, rfl⟩ := touched
    rfl
  | close other => exact congrArg some (Set.mem_singleton_iff.1 touched).symm
  | newHandle handle => exact touched.elim
  | copy copying => exact touched.elim

/-- The stream of a handle that has just been opened. -/
theorem stream_of_opens {name : String} {args : List Value}
    (opens : Opens r name args w ref node access) :
    (((r.call "fileio" name args).run w).2.store.handle ref).stream =
      some (Files.streamOn node access) := by
  obtain ⟨path, later, asked, run, leads⟩ := opens
  obtain ⟨step, explain, call, opensAs⟩ := call_of_openingCall provides asked
  rw [run]
  rw [call, Files.run_opening] at run
  have opensAs := opensAs w.files
  generalize step w.files = result at run opensAs
  obtain ⟨stream?, files⟩ := result
  cases stream? with
  | none => cases run -- The call gives void then.
  | some stream =>
    cases run
    obtain ⟨other, rfl, leads'⟩ := opensAs stream rfl
    obtain rfl : other = node := Except.ok.inj (leads'.symm.trans leads)
    rw [Store.handle_newHandle, if_pos rfl]

/-- While a handle is open it is on the node it was obtained on, with the rights asked for. -/
theorem Obtained.stream_eq (obtained : Obtained r start actions ref node access)
    (here : ((performAll r start actions).store.handle ref).stream = some stream) :
    stream.SameOpening (Files.streamOn node access) := by
  obtain ⟨earlier, f, provided, args, later, rfl, space, opens⟩ := obtained
  have opened := stream_of_opens provides opens
  rw [← space] at opened
  rw [performAll_append] at here
  have run := covers_performAll provides later
    ((call f provided args).perform r (performAll r start earlier))
  have held := Store.holdsHandle_of_isOpen (Option.isSome_of_eq_some opened)
  obtain ⟨first, found, same⟩ := run.stream ref stream held here
  cases found.symm.trans opened
  exact same

/-- Every open handle was obtained in the run, on the node and with the rights of its stream. -/
theorem obtained_of_open (noneOpen : ∀ ref, ¬(start.store.handle ref).isOpen)
    (scripted : ∀ action ∈ actions, action.IsScripted)
    (here : ((performAll r start actions).store.handle ref).stream = some stream) :
    Obtained r start actions ref stream.node stream.access := by
  induction actions using List.reverseRecOn generalizing ref stream with
  | nil => exact absurd (Option.isSome_of_eq_some here) (noneOpen ref)
  | append_singleton actions action ih =>
    rw [performAll_append] at here
    have covers := covers_perform provides action (performAll r start actions)
    -- A handle that was there before the last action is still on its file; a new one was opened.
    obtain held | opened := covers.added ref
      (Store.holdsHandle_of_isOpen (Option.isSome_of_eq_some here))
    · obtain ⟨before, found, same⟩ := covers.stream ref stream held here
      rw [same.1, same.2]
      exact (ih (fun other member => scripted other (List.mem_append_left _ member))
        found).append [action]
    · cases action with
      | call f provided args =>
        obtain ⟨space, node, access, opens⟩ := opened
        have first := stream_of_opens provides opens
        rw [← space] at first
        cases here.symm.trans first
        exact ⟨actions, f, provided, args, [], rfl, space, opens⟩
      | newHandle handle =>
        have noStream := scripted _ (List.mem_append_right _ (List.mem_singleton_self _))
        obtain rfl := Set.mem_singleton_iff.1 opened
        have found := (Store.handle_newHandle (performAll r start actions).store handle
          ((performAll r start actions).store.newHandle handle).1).trans (if_pos rfl)
        cases ((congrArg Handle.stream found).trans noStream).symm.trans here
      | close other => exact opened.elim
      | copy copying => exact opened.elim

theorem mayChange_of_bytes (noneOpen : ∀ ref, ¬(start.store.handle ref).isOpen)
    (scripted : ∀ action ∈ actions, action.IsScripted) {action : Action} {bytes : List UInt8}
    (held : (performAll r start actions).files.bytes? node = some bytes)
    (differ : (action.perform r (performAll r start actions)).files.bytes? node ≠ some bytes) :
    MayChange r start actions node action := by
  have changed : node ∈ (action.footprint r (performAll r start actions)).changed := by
    by_contra outside
    exact differ ((covers_perform provides action _).keeps.bytes?_eq outside held)
  cases action with
  | call f provided args =>
    obtain ⟨ref, rest, key, rfl, stream, here, rfl, canWrite⟩ | ⟨stamp, path, key, rfl, leads⟩ :=
      changed
    · exact .write provided rest key (Option.isSome_of_eq_some here)
        (obtained_of_open provides noneOpen scripted here) canWrite
    · exact .create provided stamp key leads
  | close ref => exact changed.elim
  | newHandle handle => exact changed.elim
  | copy copying => exact changed.elim

end Provided

end Action

namespace Library

open ScriptHost.Action Files

/-! ### Three handles on one file -/

/-- A file is made and then opened to be read and to be written, and there is a byte to write. -/
def threeHandles : List Action :=
  [.call standard[12] (List.getElem_mem _) [.string ⟨0⟩ "f"],
    .call standard[10] (List.getElem_mem _) [.string ⟨0⟩ "f", .string ⟨0⟩ "r"],
    .call standard[10] (List.getElem_mem _) [.string ⟨0⟩ "f", .string ⟨0⟩ "w"],
    .copy (.newArray [.byte 7])]

/-- The world that this leads to from nothing. -/
def sharedFile : World where
  store :=
    { handles := #[⟨"f", some ⟨⟨1⟩, 0, .readWrite⟩⟩, ⟨"f", some ⟨⟨1⟩, 0, .read⟩⟩,
        ⟨"f", some ⟨⟨1⟩, 0, .write⟩⟩]
      arrays := #[[.byte 7]] }
  files :=
    { nodes := #[.directory ⟨0⟩ ((∅ : NameMap NodeId).insert "f" ⟨1⟩) false, .file .empty]
      workingNode := ⟨0⟩
      workingPath := [] }

theorem provides_standardRegistry : ∀ f ∈ standard, f ∈ standardRegistry.entries := by
  rw [entries_standardRegistry]
  exact fun _ member => member

theorem perform_call {f : Registration} (provided : f ∈ standard) (args : List Value) (w : World) :
    (Action.call f provided args).perform standardRegistry w =
      ((standardRegistry.callEntry f args).run w).2 := by
  rw [perform, Registry.call_of_mem (provides_standardRegistry f provided)]

theorem performAll_threeHandles :
    performAll standardRegistry { store := {}, files := FileTree.bare } threeHandles =
      sharedFile := by
  simp only [threeHandles, performAll, List.foldl, perform_call]
  rfl

/-- The handles for reading and for writing were obtained on the one file. -/
theorem obtained_threeHandles :
    Obtained standardRegistry { store := {}, files := FileTree.bare } threeHandles ⟨1⟩ ⟨1⟩ .read ∧
      Obtained standardRegistry { store := {}, files := FileTree.bare } threeHandles ⟨2⟩ ⟨1⟩
        .write := by
  constructor
  · obtain ⟨later, run, leads⟩ : ∃ later, (standardRegistry.call "fileio" "fOpen"
        [.string ⟨0⟩ "f", .string ⟨0⟩ "r"]).run (performAll standardRegistry
          { store := {}, files := FileTree.bare } (threeHandles.take 1)) =
            (.ok (.filehandle ⟨1⟩), later) ∧ later.files.openExisting "f" = .ok ⟨1⟩ := by
      simp only [call_openFile provides_standardRegistry, threeHandles, List.take, performAll,
        List.foldl, perform_call]
      exact ⟨_, rfl, rfl⟩
    exact ⟨threeHandles.take 1, standard[10], List.getElem_mem _, _, threeHandles.drop 2, rfl, rfl,
      "f", later, .read ⟨0⟩ ⟨0⟩, run, leads⟩
  · obtain ⟨later, run, leads⟩ : ∃ later, (standardRegistry.call "fileio" "fOpen"
        [.string ⟨0⟩ "f", .string ⟨0⟩ "w"]).run (performAll standardRegistry
          { store := {}, files := FileTree.bare } (threeHandles.take 2)) =
            (.ok (.filehandle ⟨2⟩), later) ∧ later.files.openExisting "f" = .ok ⟨1⟩ := by
      simp only [call_openFile provides_standardRegistry, threeHandles, List.take, performAll,
        List.foldl, perform_call]
      exact ⟨_, rfl, rfl⟩
    exact ⟨threeHandles.take 2, standard[10], List.getElem_mem _, _, threeHandles.drop 3, rfl, rfl,
      "f", later, .write ⟨0⟩ ⟨0⟩, run, leads⟩

/-! ### The frame of file contents -/

/-- File contents and handles after any run of scripted actions, from any files and without any open
handle. The bytes of a file change in a step only if that is a write through an open handle that was
obtained on the file with the right to write, or makes the file anew at a path that leads to it. A
handle that was opened to be read writes nothing, one that was opened to be written reads nothing,
and where there is the right to write, the bytes go to the position of the handle. An action leaves
every handle as it is but the one it is done to. -/
theorem file_contents_frame {r : Registry} (provides : ∀ f ∈ standard, f ∈ r.entries)
    {start now : World} (noneOpen : ∀ ref, ¬(start.store.handle ref).isOpen)
    {actions : List Action} (scripted : ∀ action ∈ actions, action.IsScripted)
    (reached : performAll r start actions = now) :
    (∀ (action : Action) node bytes, now.files.bytes? node = some bytes →
      (action.perform r now).files.bytes? node ≠ some bytes →
      MayChange r start actions node action) ∧
    (∀ ref node, Obtained r start actions ref node .read → (now.store.handle ref).isOpen →
      ∀ data name args, WriteCall now.store ref data name args → data ≠ [] →
        (r.call "fileio" name args).run now = (.ok (.integer 0), now)) ∧
    (∀ ref node, Obtained r start actions ref node .write → (now.store.handle ref).isOpen →
      ∀ count : Integer, 0 < count.val →
        (r.call "fileio" "fRead" [.filehandle ref, .integer count]).run now = (.ok .void, now)) ∧
    (∀ ref node access, Obtained r start actions ref node access → access.canWrite →
      ∀ stream, (now.store.handle ref).stream = some stream →
      ∀ content, now.files.content? node = some content →
      ∀ data name args, WriteCall now.store ref data name args → data ≠ [] →
        ∃ later, (r.call "fileio" name args).run now = (.ok (.integer 1), later) ∧
          later.files.content? node = some (content.overwrite stream.position data)) ∧
    ∀ (action : Action) other, now.store.HoldsHandle other → action.target ≠ some other →
      (action.perform r now).store.handle other = now.store.handle other := by
  subst reached
  refine ⟨fun action node bytes held differ => ?changes, fun ref node obtained isOpen data name args
    call nonempty => ?readOnly, fun ref node obtained isOpen count positive => ?writeOnly,
    fun ref node access obtained canWrite stream here content held data name args call nonempty =>
      ?writes, fun action other held differ => ?others⟩
  case changes => exact mayChange_of_bytes provides noneOpen scripted held differ
  case readOnly =>
    obtain ⟨stream, here⟩ := Option.isSome_iff_exists.1 isOpen
    have same := (obtained.stream_eq provides here).2
    refine run_writeCall_of_not_canWrite provides call here ?_ nonempty
    rw [same]
    exact Bool.false_ne_true
  case writeOnly =>
    obtain ⟨stream, here⟩ := Option.isSome_iff_exists.1 isOpen
    have same := (obtained.stream_eq provides here).2
    refine run_readBytes_of_not_canRead provides here ?_ positive
    rw [same]
    exact Bool.false_ne_true
  case writes =>
    obtain ⟨rfl, sameAccess⟩ := obtained.stream_eq provides here
    have right : stream.access.canWrite := by rwa [sameAccess]
    refine ⟨_, run_writeCall_of_canWrite provides call here right nonempty held, ?_⟩
    exact FileTree.content?_setContent_self held _
  case others =>
    have covers := covers_perform provides action (performAll r start actions)
    exact covers.handle_eq other (fun touched => differ (target_of_touched touched)) held

/-- Three handles on one file: the first one may write, the second one not, and the third one may
not read. -/
theorem file_contents_frame_threeHandles :
    MayChange standardRegistry { store := {}, files := FileTree.bare } threeHandles ⟨1⟩
        (.call standard[20] (List.getElem_mem _) [.filehandle ⟨0⟩, .array ⟨0⟩]) ∧
      (standardRegistry.call "fileio" "fWrite" [.filehandle ⟨1⟩, .array ⟨0⟩]).run sharedFile =
        (.ok (.integer 0), sharedFile) ∧
      (standardRegistry.call "fileio" "fRead" [.filehandle ⟨2⟩, .integer 1]).run sharedFile =
        (.ok .void, sharedFile) := by
  have noneOpen (ref : HandleRef) : ¬(({} : Store).handle ref).isOpen := Bool.false_ne_true
  have scripted : ∀ action ∈ threeHandles, action.IsScripted := by simp [threeHandles, IsScripted]
  obtain ⟨changes, readOnly, writeOnly, _⟩ :=
    file_contents_frame provides_standardRegistry noneOpen scripted performAll_threeHandles
  have written : ((Action.call standard[20] (List.getElem_mem _)
      [.filehandle ⟨0⟩, .array ⟨0⟩]).perform standardRegistry sharedFile).files.bytes? ⟨1⟩ =
        some [7] := by
    rw [perform_call]
    rfl
  refine ⟨changes _ ⟨1⟩ [] rfl ?_, readOnly ⟨1⟩ ⟨1⟩ obtained_threeHandles.1 rfl [7] _ _
    (.bytes rfl) (by decide), writeOnly ⟨2⟩ ⟨1⟩ obtained_threeHandles.2 rfl 1 (by decide)⟩
  rw [written]
  decide

end Library

end ScriptHost
