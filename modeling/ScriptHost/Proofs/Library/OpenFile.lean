import ScriptHost.Proofs.Library.FileContents
import ScriptHost.Proofs.Stream.Bytes

/-!
Calls on a handle that is open on a regular file. Each call has a result, which is told by the bytes
of the file and the position of the handle, and leaves the handle on the file at a position that is
told as well. Only writing changes the bytes.
-/

namespace ScriptHost

/-- The handle is open on a regular file that has the given bytes. -/
structure World.OnFile (w : World) (ref : HandleRef) (stream : Stream) (bytes : List UInt8) :
    Prop where
  stream_eq : (w.store.handle ref).stream = some stream
  bytes_eq : w.files.bytes? stream.node = some bytes

/-- A world with one file, and a handle on it at a position. -/
def World.oneFile (content : FileContent) (position : Nat) : World where
  store := { handles := #[⟨"f", some ⟨⟨1⟩, position, .readWrite⟩⟩] }
  files :=
    { nodes := #[.directory ⟨0⟩ ((∅ : NameMap NodeId).insert "f" ⟨1⟩) false, .file content]
      workingNode := ⟨0⟩
      workingPath := [] }

theorem World.oneFile_onFile (content : FileContent) (position : Nat) :
    (World.oneFile content position).OnFile ⟨0⟩ ⟨⟨1⟩, position, .readWrite⟩ content.toList :=
  ⟨rfl, rfl⟩

namespace Store

/-- The arrays of the first store are in the second one with the same items. -/
def KeepsArrays (s t : Store) : Prop :=
  ∀ array, s.Holds (.array array) → t.Holds (.array array) ∧ t.items array = s.items array

variable {s t u : Store}

theorem KeepsArrays.refl (s : Store) : s.KeepsArrays s :=
  fun _ held => ⟨held, rfl⟩

theorem KeepsArrays.trans (first : s.KeepsArrays t) (second : t.KeepsArrays u) :
    s.KeepsArrays u := by
  intro array held
  obtain ⟨between, same⟩ := first array held
  exact ⟨(second array between).1, (second array between).2.trans same⟩

theorem holds_newArray (s : Store) (items : List Value) :
    (s.newArray items).2.Holds (.array (s.newArray items).1) := by
  rw [Holds, newArray, Array.size_push]
  exact Nat.lt_succ_self _

theorem keepsArrays_newArray (s : Store) (items : List Value) :
    s.KeepsArrays (s.newArray items).2 := by
  intro array (held : array.index < s.arrays.size)
  have other : array ≠ (s.newArray items).1 := fun same => held.ne (congrArg ArrayRef.index same)
  rw [items_newArray, if_neg other, Holds, newArray, Array.size_push]
  exact ⟨Nat.lt_succ_of_lt held, rfl⟩

end Store

namespace World.OnFile

variable {w later : World} {ref : HandleRef} {stream moved : Stream} {bytes : List UInt8}

theorem held (here : w.OnFile ref stream bytes) : w.store.HoldsHandle ref :=
  Store.holdsHandle_of_isOpen (Option.isSome_of_eq_some here.stream_eq)

theorem of_handles_eq (here : w.OnFile ref stream bytes)
    (handles : later.store.handles = w.store.handles) (files : later.files = w.files) :
    later.OnFile ref stream bytes where
  stream_eq := (congrArg Handle.stream (Store.handle_congr handles)).trans here.stream_eq
  bytes_eq := by rw [files, here.bytes_eq]

theorem setStream (here : w.OnFile ref stream bytes) (files : FileTree) {new : List UInt8}
    (changed : files.bytes? moved.node = some new) :
    ({ store := w.store.setStream ref (some moved), files } : World).OnFile ref moved new where
  stream_eq := by rw [Store.handle_setStream here.held, if_pos rfl]
  bytes_eq := changed

theorem run_streamOf_bind (here : w.OnFile ref stream bytes) {α : Type} (operation : String)
    (next : Stream → Host α) :
    (Library.Files.streamOf operation ref >>= next).run w = (next stream).run w :=
  Library.Files.run_streamOf_bind_of_isOn here.stream_eq operation next

/-- The handle on the same file at another position. -/
theorem move (here : w.OnFile ref stream bytes) (position : Nat) :
    ({ w with store := w.store.setStream ref (some { stream with position }) } : World).OnFile ref
      { stream with position } bytes :=
  here.setStream w.files here.bytes_eq

end World.OnFile

namespace Library

open Files

section OnFile

variable {r : Registry} (provides : ∀ f ∈ standard, f ∈ r.entries) {w : World} {ref : HandleRef}
  {stream : Stream} {bytes : List UInt8} (here : w.OnFile ref stream bytes)
include provides here

theorem run_length :
    (r.call "fileio" "fLen" [.filehandle ref]).run w =
      (.ok (.integer (.ofNat bytes.length)), w) := by
  have carried : Arguments.Carried [.filehandle] [.filehandle ref] (ref, ()) := ⟨rfl, rfl⟩
  have body : (length .obliging ref).run w = (.ok (.ofNat bytes.length), w) := by
    obtain ⟨content, found, rfl⟩ := Option.map_eq_some_iff.1 here.bytes_eq
    rw [length, here.run_streamOf_bind, Host.run_bind, Host.run_readFiles, Stream.length?_obliging,
      found, FileContent.length_toList]
    rfl
  exact run_of_carried provides 11 [.filehandle] (length .obliging) rfl carried body

omit here in
/-- The position of a handle does not depend on what it is on. -/
theorem run_getPosition_of_stream (isOn : (w.store.handle ref).stream = some stream) :
    (r.call "fileio" "fGetPos" [.filehandle ref]).run w =
      (.ok (.integer (.ofNat stream.position)), w) := by
  have carried : Arguments.Carried [.filehandle] [.filehandle ref] (ref, ()) := ⟨rfl, rfl⟩
  have body : (getPosition .obliging ref).run w = (.ok (.ofNat stream.position), w) := by
    rw [getPosition, run_streamOf_bind_of_isOn isOn]
    rfl
  exact run_of_carried provides 12 [.filehandle] (getPosition .obliging) rfl carried body

theorem run_getPosition :
    (r.call "fileio" "fGetPos" [.filehandle ref]).run w =
      (.ok (.integer (.ofNat stream.position)), w) :=
  run_getPosition_of_stream provides here.stream_eq

theorem run_setPosition (position : Integer) (valid : 0 ≤ position.val) :
    ∃ later, (r.call "fileio" "fSetPos" [.filehandle ref, .integer position]).run w =
        (.ok .void, later) ∧
      later.OnFile ref { stream with position := position.val.toNat } bytes ∧
      later.files = w.files := by
  have carried : Arguments.Carried [.filehandle, .integer]
      [.filehandle ref, .integer position] (ref, position, ()) := ⟨rfl, rfl, rfl⟩
  have body : (setPosition .obliging ref position).run w = (.ok (), { w with
      store := w.store.setStream ref
        (some { stream with position := position.val.toNat }) }) := by
    rw [setPosition, if_neg (not_lt.2 valid), here.run_streamOf_bind]
    rfl
  have moved := run_of_carried provides 13 [.filehandle, .integer] (setPosition .obliging) rfl
    carried body
  exact ⟨_, moved, here.move position.val.toNat, rfl⟩

theorem run_read (canRead : stream.access.canRead) {count : Integer} (valid : 0 ≤ count.val) :
    let data := (bytes.drop stream.position).take count.val.toNat
    ∃ copy later, (r.call "fileio" "fRead" [.filehandle ref, .integer count]).run w =
        (.ok (.array copy), later) ∧
      later.store.items copy = data.map .byte ∧
      later.OnFile ref (stream.advance data.length) bytes ∧ later.files = w.files ∧
      later.store.Holds (.array copy) ∧ w.store.KeepsArrays later.store := by
  intro data
  let moved := stream.advance data.length
  have carried : Arguments.Carried [.filehandle, .integer]
      [.filehandle ref, .integer count] (ref, count, ()) := ⟨rfl, rfl, rfl⟩
  have body : (readBytes ref count).run w = (.ok (some data), { w with
      store := w.store.setStream ref (some moved) }) := by
    rw [readBytes, here.run_streamOf_bind, if_neg (not_lt.2 valid), Host.run_bind,
      Host.run_readFiles, Stream.read?_eq canRead here.bytes_eq]
    rfl
  have kept := here.move moved.position
  refine ⟨_, _, run_of_carried provides 14 [.filehandle, .integer] readBytes rfl carried body, ?_,
    kept.of_handles_eq rfl rfl, rfl, Store.holds_newArray _ _, Store.keepsArrays_newArray _ _⟩
  exact (Store.items_newArray ..).trans (if_pos rfl)

theorem run_read_negative {count : Integer} (negative : count.val < 0) :
    (r.call "fileio" "fRead" [.filehandle ref, .integer count]).run w = (.ok .void, w) := by
  have carried : Arguments.Carried [.filehandle, .integer]
      [.filehandle ref, .integer count] (ref, count, ()) := ⟨rfl, rfl, rfl⟩
  have body : (readBytes ref count).run w = (.ok none, w) := by
    rw [readBytes, here.run_streamOf_bind, if_pos negative]
    rfl
  exact run_of_carried provides 14 [.filehandle, .integer] readBytes rfl carried body

theorem run_readLine (canRead : stream.access.canRead) :
    let rest := bytes.drop stream.position
    let line := rest.takeWhile (· ≠ newline)
    ∃ stamp later, (r.call "fileio" "fReadLine" [.filehandle ref]).run w =
        (.ok (.string stamp (latin1Text line)), later) ∧
      later.OnFile ref (stream.advance (min (line.length + 1) rest.length)) bytes ∧
      later.files = w.files := by
  intro rest line
  let moved := stream.advance (min (line.length + 1) rest.length)
  have carried : Arguments.Carried [.filehandle] [.filehandle ref] (ref, ()) := ⟨rfl, rfl⟩
  have body : (readLine ref).run w = (.ok (latin1Text line), { w with
      store := w.store.setStream ref (some moved) }) := by
    rw [readLine, here.run_streamOf_bind, Host.run_bind, Host.run_readFiles,
      Stream.readLine?_eq canRead here.bytes_eq]
    rfl
  have kept := here.move moved.position
  exact ⟨_, _, run_of_carried provides 10 [.filehandle] readLine rfl carried body,
    kept.of_handles_eq rfl rfl, rfl⟩

theorem run_write (canWrite : stream.access.canWrite) {data : List UInt8} {name : String}
    {args : List Value} (call : WriteCall w.store ref data name args) :
    ∃ new later, (r.call "fileio" name args).run w = (.ok (.integer 1), later) ∧
      later.OnFile ref (stream.advance data.length) new ∧
      Overwrites bytes stream.position data new ∧
      ({ touched := {ref}, opened := ∅, changed := {stream.node} } : Footprint).Covers w later := by
  obtain ⟨new, changed, written, held, overwrites, keeps⟩ :=
    Stream.exists_write? canWrite here.bytes_eq data
  have run : (writeAll name ref data).run w = (.ok true,
      { store := w.store.setStream ref (some (stream.advance data.length))
        files := changed }) := by
    rw [run_writeAll, here.stream_eq]
    dsimp only
    rw [written]
  refine ⟨new, _, run_writeCall provides call run, here.setStream changed held, overwrites,
    .moveStream (Set.mem_singleton ref) here.stream_eq ?_ keeps⟩
  exact ⟨rfl, rfl⟩

end OnFile

end Library

end ScriptHost
