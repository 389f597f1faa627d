import ScriptHost.Proofs.FileTree.Opening
import ScriptHost.Proofs.Library.HandleSteps

/-!
What each function of the standard library may touch: the handle it is called on, the handle it
opens, and the bytes of the file it writes or empties. Everything else is left as it was. A stream
that is moved stays on its file with the rights it was opened with.
-/

namespace ScriptHost

/-- Two streams on one file with the same rights, wherever they stand. -/
def Stream.SameOpening (s t : Stream) : Prop :=
  s.node = t.node ∧ s.access = t.access

/-- What a step may touch: the handles it may move or close, those it may add, and the files that it
may change. -/
structure Footprint where
  touched : Set HandleRef
  opened : Set HandleRef
  changed : Set NodeId

namespace Footprint

variable {p q : Footprint} {w later last : World} {ref : HandleRef}

/-- The second world comes after the first, and all that differs is in the footprint. -/
structure Covers (p : Footprint) (w later : World) : Prop where
  held : ∀ ref, w.store.HoldsHandle ref → later.store.HoldsHandle ref
  added : ∀ ref, later.store.HoldsHandle ref → w.store.HoldsHandle ref ∨ ref ∈ p.opened
  handle_eq : ∀ ref ∉ p.touched, w.store.HoldsHandle ref →
    later.store.handle ref = w.store.handle ref
  stream : ∀ ref moved, w.store.HoldsHandle ref → (later.store.handle ref).stream = some moved →
    ∃ stream, (w.store.handle ref).stream = some stream ∧ moved.SameOpening stream
  keeps : w.files.Keeps p.changed later.files

namespace Covers

theorem of_handles_eq (same : later.store.handles = w.store.handles)
    (keeps : w.files.Keeps p.changed later.files) : p.Covers w later where
  held _ held := by rwa [Store.HoldsHandle, same]
  added _ held := .inl (by rwa [Store.HoldsHandle, same] at held)
  handle_eq _ _ _ := Store.handle_congr same
  stream _ moved _ found := ⟨moved, (Store.handle_congr same) ▸ found, rfl, rfl⟩
  keeps := keeps

theorem refl (p : Footprint) (w : World) : p.Covers w w :=
  .of_handles_eq rfl (.refl _ _)

theorem trans (first : p.Covers w later) (second : p.Covers later last) : p.Covers w last where
  held ref held := second.held ref (first.held ref held)
  added ref held := (second.added ref held).elim (first.added ref) .inr
  handle_eq ref outside held :=
    (second.handle_eq ref outside (first.held ref held)).trans (first.handle_eq ref outside held)
  stream ref moved held found := by
    obtain ⟨between, found, samesecond⟩ := second.stream ref moved (first.held ref held) found
    obtain ⟨stream, found, samefirst⟩ := first.stream ref between held found
    exact ⟨stream, found, samesecond.1.trans samefirst.1, samesecond.2.trans samefirst.2⟩
  keeps := first.keeps.trans second.keeps

/-- The stream of a handle is moved or taken away, and files may have changed with that. -/
theorem setStream (touched : ref ∈ p.touched) {next : Option Stream}
    (moves : ∀ moved ∈ next, ∃ stream ∈ (w.store.handle ref).stream, moved.SameOpening stream)
    {files : FileTree} (keeps : w.files.Keeps p.changed files) :
    p.Covers w { store := w.store.setStream ref next, files } where
  held _ held := (Store.holdsHandle_setStream _).2 held
  added _ held := .inl ((Store.holdsHandle_setStream _).1 held)
  handle_eq other outside _ := by
    refine Store.handle_setStream_of_ne ?_ next
    rintro rfl
    exact outside touched
  stream other moved held found := by
    by_cases same : ref = other
    · subst same
      rw [Store.handle_setStream held, if_pos rfl] at found
      exact moves moved found
    · rw [Store.handle_setStream_of_ne same] at found
      exact ⟨moved, found, rfl, rfl⟩
  keeps := keeps

theorem moveStream (touched : ref ∈ p.touched) {stream moved : Stream}
    (here : stream ∈ (w.store.handle ref).stream) (same : moved.SameOpening stream)
    {files : FileTree} (keeps : w.files.Keeps p.changed files) :
    p.Covers w { store := w.store.setStream ref (some moved), files } := by
  refine .setStream touched (fun next met => ?_) keeps
  obtain rfl := Option.some.inj met
  exact ⟨stream, here, same⟩

theorem closeStream (touched : ref ∈ p.touched) :
    p.Covers w { w with store := w.store.setStream ref none } :=
  .setStream touched (fun _ met => (Option.not_mem_none _ met).elim) (.refl _ _)

theorem newHandle (handle : Handle) (opened : (w.store.newHandle handle).1 ∈ p.opened)
    {files : FileTree} (keeps : w.files.Keeps p.changed files) :
    p.Covers w { store := (w.store.newHandle handle).2, files } where
  held _ held := held.newHandle handle
  added ref held := by
    rw [Store.HoldsHandle, Store.newHandle, Array.size_push] at held
    refine (Nat.lt_succ_iff_lt_or_eq.1 held).imp id fun last => ?_
    obtain rfl : ref = (w.store.newHandle handle).1 := congrArg HandleRef.mk last
    exact opened
  handle_eq ref _ held := by
    rw [Store.handle_newHandle, if_neg]
    exact fun met => Store.not_holdsHandle_newHandle handle (met ▸ held)
  stream ref moved held found := by
    rw [Store.handle_newHandle, if_neg] at found
    · exact ⟨moved, found, rfl, rfl⟩
    · exact fun met => Store.not_holdsHandle_newHandle handle (met ▸ held)
  keeps := keeps

end Covers

end Footprint

namespace Host

variable {α β : Type} {action : Host α} {next : α → Host β} {w : World} {p : Footprint}

/-- The action stays in the footprint, whether it ends with a result or without. -/
def Within (action : Host α) (w : World) (p : Footprint) : Prop :=
  p.Covers w (action.run w).2

theorem Within.bind (first : action.Within w p)
    (rest : ∀ a later, action.run w = (.ok a, later) → (next a).Within later p) :
    (action >>= next).Within w p := by
  rw [Within] at first
  rw [Within, run_bind]
  cases ended : action.run w with
  | mk result later =>
    rw [ended] at first
    cases result with
    | ok a => exact first.trans (rest a later ended)
    | error e => exact first

theorem Within.mapAbort (within : action.Within w p) (f : Abort → Abort) :
    (action.mapAbort f).Within w p :=
  within

theorem within_of_run {result : Except Abort α} (run : action.run w = (result, w)) :
    action.Within w p := by
  rw [Within, run]
  exact .refl p w

theorem within_pure (a : α) : (pure a : Host α).Within w p :=
  within_of_run rfl

theorem within_read (query : Store → α) : (read query).Within w p :=
  within_of_run rfl

theorem within_readFiles (query : FileTree → α) : (readFiles query).Within w p :=
  within_of_run rfl

theorem within_changeFiles {step : FileTree → α × FileTree}
    (keeps : w.files.Keeps p.changed (step w.files).2) : (changeFiles step).Within w p :=
  .of_handles_eq rfl keeps

theorem within_give {ρ : Type} [ToValue ρ] [ToValue.LeavesHandles ρ] (result : ρ) :
    (give result).Within w p :=
  .of_handles_eq (ToValue.LeavesHandles.handles_toValue result w.store) (.refl _ _)

end Host

namespace Library

namespace Files

/-! ### Streams -/

section Streams

variable {stream moved : Stream} {files changed : FileTree} {bytes : List UInt8}

theorem sameOpening_of_read? {count : Nat} (read : stream.read? files count = some (bytes, moved)) :
    moved.SameOpening stream := by
  unfold Stream.read? at read
  split at read
  next => cases read; exact ⟨rfl, rfl⟩
  next =>
    obtain ⟨rest, _, same⟩ := Option.map_eq_some_iff.1 read
    cases same
    exact ⟨rfl, rfl⟩

theorem sameOpening_of_readLine? (read : stream.readLine? files = some (bytes, moved)) :
    moved.SameOpening stream := by
  obtain ⟨rest, _, same⟩ := Option.map_eq_some_iff.1 read
  cases same
  exact ⟨rfl, rfl⟩

theorem sameOpening_of_seek? {os : OperatingSystem} {position : Nat}
    (sought : stream.seek? os files position = some moved) : moved.SameOpening stream := by
  unfold Stream.seek? at sought
  split at sought
  next => cases sought; exact ⟨rfl, rfl⟩
  next => cases sought

/-- Only the file of the stream is written, and only with the right to. -/
theorem write?_spec (written : stream.write? files bytes = some (moved, changed)) :
    moved.SameOpening stream ∧
      files.Keeps { node | stream.node = node ∧ stream.access.canWrite } changed := by
  unfold Stream.write? at written
  split at written
  next => cases written; exact ⟨⟨rfl, rfl⟩, .refl _ _⟩
  next =>
    split at written
    next canWrite =>
      obtain ⟨content, _, same⟩ := Option.map_eq_some_iff.1 written
      cases same
      refine ⟨⟨rfl, rfl⟩, (FileTree.keeps_setContent _ _ _).mono ?_⟩
      rintro _ rfl
      exact ⟨rfl, canWrite⟩
    next => cases written

end Streams

/-! ### Operations on handles -/

section Handles

variable {p : Footprint} {ref : HandleRef} {w : World}

theorem streamOf_bind_within {α : Type} (operation : String) {next : Stream → Host α}
    (rest : ∀ stream ∈ (w.store.handle ref).stream, (next stream).Within w p) :
    (streamOf operation ref >>= next).Within w p := by
  rw [Host.Within, run_streamOf_bind]
  split
  next stream here => exact rest stream here
  next => exact .refl p w

theorem keep_within (touched : ref ∈ p.touched) {stream moved : Stream}
    (here : stream ∈ (w.store.handle ref).stream) (same : moved.SameOpening stream) :
    (keep ref moved).Within w p :=
  .moveStream touched here same (.refl _ _)

theorem closeHandle_within (touched : ref ∈ p.touched) : (closeHandle ref).Within w p :=
  Host.Within.bind (.closeStream touched) fun _ _ _ => Host.within_pure _

theorem readLine_within (touched : ref ∈ p.touched) : (readLine ref).Within w p := by
  refine streamOf_bind_within _ fun stream here =>
    (Host.within_readFiles _).bind fun result later run => ?_
  obtain ⟨read, rfl⟩ := Prod.mk.inj run
  cases result with
  | none => exact Host.within_pure _
  | some found =>
    refine (keep_within touched here ?_).bind fun _ _ _ => Host.within_pure _
    exact sameOpening_of_readLine? (Except.ok.inj read)

theorem length_within {os : OperatingSystem} : (length os ref).Within w p :=
  streamOf_bind_within _ fun _ _ => (Host.within_readFiles _).bind fun _ _ _ => Host.within_pure _

theorem getPosition_within {os : OperatingSystem} : (getPosition os ref).Within w p :=
  streamOf_bind_within _ fun _ _ => (Host.within_readFiles _).bind fun _ _ _ => Host.within_pure _

theorem setPosition_within {os : OperatingSystem} (touched : ref ∈ p.touched)
    (position : Integer) : (setPosition os ref position).Within w p := by
  rw [setPosition]
  split
  next => exact Host.within_of_run rfl
  next =>
    refine streamOf_bind_within _ fun stream here =>
      (Host.within_readFiles _).bind fun result later run => ?_
    obtain ⟨sought, rfl⟩ := Prod.mk.inj run
    cases result with
    | none => exact Host.within_pure _
    | some moved => exact keep_within touched here (sameOpening_of_seek? (Except.ok.inj sought))

theorem readBytes_within (touched : ref ∈ p.touched) (count : Integer) :
    (readBytes ref count).Within w p := by
  refine streamOf_bind_within _ fun stream here => ?_
  split
  next => exact Host.within_pure _
  next =>
    refine (Host.within_readFiles _).bind fun result later run => ?_
    obtain ⟨read, rfl⟩ := Prod.mk.inj run
    cases result with
    | none => exact Host.within_pure _
    | some found =>
      refine (keep_within touched here ?_).bind fun _ _ _ => Host.within_pure _
      exact sameOpening_of_read? (Except.ok.inj read)

/-- The files that can be written through a handle. -/
def writable (w : World) (ref : HandleRef) : Set NodeId :=
  { node | ∃ stream ∈ (w.store.handle ref).stream,
    stream.node = node ∧ stream.access.canWrite }

theorem run_writeAll (ref : HandleRef) (w : World) (operation : String) (data : List UInt8) :
    (writeAll operation ref data).run w =
      match (w.store.handle ref).stream with
      | none => (.error (.error { cause := .invalidHandle operation }), w)
      | some stream =>
        match stream.write? w.files data with
        | none => (.ok false, w)
        | some (moved, files) =>
          (.ok true, { store := w.store.setStream ref (some moved), files }) := by
  rw [writeAll, run_streamOf_bind]
  cases (w.store.handle ref).stream with
  | none => rfl
  | some stream =>
    dsimp only
    rw [Host.run_bind, Host.run_changeFiles]
    cases stream.write? w.files data <;> rfl

theorem writeAll_within (touched : ref ∈ p.touched) (changed : writable w ref ⊆ p.changed)
    (operation : String) (data : List UInt8) : (writeAll operation ref data).Within w p := by
  rw [Host.Within, run_writeAll]
  split
  next => exact .refl p w
  next stream here =>
    split
    next => exact .refl p w
    next moved files written =>
      obtain ⟨same, keeps⟩ := write?_spec written
      exact .moveStream touched here same
        (keeps.mono fun node within => changed ⟨stream, here, within⟩)

theorem writeBytes_within (touched : ref ∈ p.touched) (changed : writable w ref ⊆ p.changed)
    (data : ArrayRef) : (writeBytes ref data).Within w p := by
  refine (Host.within_read _).bind fun items later run => ?_
  cases run
  refine (Host.within_of_run (Host.run_ofExcept w _)).bind fun bytes last run => ?_
  rw [Host.run_ofExcept] at run
  obtain ⟨_, rfl⟩ := Prod.mk.inj run
  exact writeAll_within touched changed _ bytes

theorem writeLine_within (touched : ref ∈ p.touched) (changed : writable w ref ⊆ p.changed)
    (line encoding : String) : (writeLine ref line encoding).Within w p := by
  rw [writeLine]
  split
  next => exact Host.within_of_run rfl
  next => exact writeAll_within touched changed _ _

end Handles

/-! ### Operations on paths -/

section Paths

variable {p : Footprint} {w : World} (path : String)

theorem createDirectory_within : (createDirectory path).Within w p :=
  Host.within_changeFiles (FileTree.keeps_createDirectories w.files path)

theorem removeDirectory_within : (removeDirectory path).Within w p := by
  refine Host.within_changeFiles ?_
  split
  next removed => exact FileTree.keeps_removeDirectory removed
  next => exact .refl _ _

theorem removeFile_within : (removeFile path).Within w p := by
  refine Host.within_changeFiles ?_
  split
  next removed => exact FileTree.keeps_removeFile removed
  next => exact .refl _ _

theorem run_opening (path : String) (w : World) (step : FileTree → Option Stream × FileTree)
    (explain : Abort → Abort) :
    (((Host.changeFiles step >>= handleOn path) >>= Host.give).mapAbort explain).run w =
      match step w.files with
      | (none, files) => (.ok .void, { w with files })
      | (some stream, files) =>
        (.ok (.filehandle (w.store.newHandle { path, stream := some stream }).1),
          { store := (w.store.newHandle { path, stream := some stream }).2, files }) := by
  rw [Host.run_mapAbort, Host.run_bind, Host.run_bind, Host.run_changeFiles]
  generalize step w.files = result
  obtain ⟨stream | stream, files⟩ := result <;> rfl

end Paths

/-! ### Opening -/

/-- The calls that open a path, with the rights that the handle gets. -/
inductive OpeningCall (path : String) : Access → String → List Value → Prop
  | read (stamp modeStamp : Stamp) :
    OpeningCall path .read "fOpen" [.string stamp path, .string modeStamp "r"]
  | readWrite (stamp modeStamp : Stamp) :
    OpeningCall path .readWrite "fOpen" [.string stamp path, .string modeStamp "rw"]
  | write (stamp modeStamp : Stamp) :
    OpeningCall path .write "fOpen" [.string stamp path, .string modeStamp "w"]
  | create (stamp : Stamp) : OpeningCall path .readWrite "fCreate" [.string stamp path]

/-- Opening a path gives a stream, if any, on the file that the path leads to then. -/
def OpensAs (path : String) (access : Access) (result : Option Stream × FileTree) : Prop :=
  ∀ stream ∈ result.1, ∃ node, stream = streamOn node access ∧
    result.2.openExisting path = .ok node

variable (files : FileTree) (path : String)

theorem openToRead_spec :
    OpensAs path .read (openToRead files path) ∧ (openToRead files path).2 = files := by
  unfold openToRead
  split
  next node here =>
    refine ⟨fun stream met => ?_, rfl⟩
    obtain rfl := Option.some.inj met
    exact ⟨node, rfl, here⟩
  next => exact ⟨fun _ met => (Option.not_mem_none _ met).elim, rfl⟩

theorem openToWrite_spec (access : Access) (truncate : Bool) :
    OpensAs path access (openToWrite files path access truncate) ∧
      files.Keeps { node | truncate ∧ files.openExisting path = .ok node }
        (openToWrite files path access truncate).2 := by
  unfold openToWrite
  split
  next node changed opened =>
    obtain ⟨leads, keeps⟩ := FileTree.openOrCreate_spec opened
    refine ⟨fun stream met => ?_, keeps⟩
    obtain rfl := Option.some.inj met
    exact ⟨node, rfl, leads⟩
  next => exact ⟨fun _ met => (Option.not_mem_none _ met).elim, .refl _ _⟩

theorem openInMode_spec (mode : String) :
    files.Keeps ∅ (openInMode files path mode).2 ∧
      ((openInMode files path mode).1 = none ∨
        ∃ access, (∀ stamp modeStamp, OpeningCall path access "fOpen"
            [.string stamp path, .string modeStamp mode]) ∧
          OpensAs path access (openInMode files path mode)) := by
  have untouched {access : Access} :
      files.Keeps ∅ (openToWrite files path access false).2 :=
    (openToWrite_spec files path access false).2.mono fun _ emptied => nomatch emptied.1
  unfold openInMode
  split
  next =>
    obtain ⟨opens, same⟩ := openToRead_spec files path
    refine ⟨?_, .inr ⟨.read, .read, opens⟩⟩
    rw [same]
    exact .refl _ _
  next => exact ⟨untouched, .inr ⟨.readWrite, .readWrite, (openToWrite_spec ..).1⟩⟩
  next => exact ⟨untouched, .inr ⟨.write, .write, (openToWrite_spec ..).1⟩⟩
  next => exact ⟨.refl _ _, .inl rfl⟩

end Files

/-! ### Calls -/

open Files

/-- The call opens a path: it gives a handle, and the path leads to the node then. -/
def Opens (r : Registry) (name : String) (args : List Value) (w : World) (ref : HandleRef)
    (node : NodeId) (access : Access) : Prop :=
  ∃ path later, OpeningCall path access name args ∧
    (r.call "fileio" name args).run w = (.ok (.filehandle ref), later) ∧
    later.files.openExisting path = .ok node

/-- The functions that write through a handle. -/
def writing : List (String × String) :=
  [("fileio", "fWrite"), ("fileio", "fWriteLine")]

/-- What a call may touch: the handle it is given, the one it opens, and the files that it writes
through the handle or empties by their path. -/
def footprint (r : Registry) (f : Registration) (args : List Value) (w : World) : Footprint where
  touched := { ref | ∃ rest, args = .filehandle ref :: rest }
  opened := { ref | f.descriptor.space = "fileio" ∧
    ∃ node access, Opens r f.descriptor.name args w ref node access }
  changed := { node |
    (∃ ref rest, f.key ∈ writing ∧ args = .filehandle ref :: rest ∧ node ∈ writable w ref) ∨
      ∃ stamp path, f.key = ("fileio", "fCreate") ∧ args = [.string stamp path] ∧
        w.files.openExisting path = .ok node }

/-- Whether calls of a function stay in their footprint. -/
def StaysWithin (f : Registration) : Prop :=
  ∀ (r : Registry), f ∈ r.entries → ∀ (args : List Value) (w : World),
    (r.call f.descriptor.space f.descriptor.name args).Within w (footprint r f args w)

section Body

variable {ρ : Type} [ToValue ρ] [ToValue.LeavesHandles ρ] {params : List ParamType} {d : Descriptor}

theorem staysWithin_of_body {body : Signature (Host ρ) params}
    (within : ∀ r args arguments w, Arguments.Carried params args arguments →
      (Signature.apply body arguments).Within w (footprint r ⟨d, .ofBody params body⟩ args w)) :
    StaysWithin ⟨d, .ofBody params body⟩ := by
  intro r provided args w
  rw [Registry.call_of_mem provided]
  obtain ⟨e, refused⟩ | ⟨arguments, carried, runs⟩ :=
    Registry.callEntry_ofBody_cases r d params body args
  · exact Host.within_of_run (refused w)
  · rw [runs]
    exact ((within r args arguments w carried).bind fun result _ _ =>
      Host.within_give result).mapAbort _

theorem staysWithin_of_handle {body : HandleRef → Signature (Host ρ) params}
    (within : ∀ ref others w (p : Footprint), ref ∈ p.touched →
      (d.key ∈ writing → writable w ref ⊆ p.changed) →
      (Signature.apply (body ref) others).Within w p) :
    StaysWithin ⟨d, .ofBody (.filehandle :: params) body⟩ := by
  refine staysWithin_of_body fun r args arguments w carried => ?_
  obtain ⟨ref, others⟩ := arguments
  obtain ⟨_, rest, rfl, rfl, _⟩ := carried.exists_cons
  refine within ref others w _ ⟨rest, rfl⟩ fun key node writable => ?_
  exact .inl ⟨ref, rest, key, rfl, writable⟩

end Body

theorem within_of_opening {r : Registry} {f : Registration} {args : List Value} {w : World}
    {path : String} {step : FileTree → Option Stream × FileTree} {explain : Abort → Abort}
    (space : f.descriptor.space = "fileio")
    (call : r.call "fileio" f.descriptor.name args =
      ((Host.changeFiles step >>= handleOn path) >>= Host.give).mapAbort explain)
    (keeps : w.files.Keeps (footprint r f args w).changed (step w.files).2)
    (opens : (step w.files).1 = none ∨ ∃ access,
      OpeningCall path access f.descriptor.name args ∧ OpensAs path access (step w.files)) :
    (r.call f.descriptor.space f.descriptor.name args).Within w (footprint r f args w) := by
  have run := run_opening path w step explain
  rw [← call] at run
  rw [Host.Within, space]
  generalize step w.files = result at run keeps opens
  obtain ⟨stream?, files⟩ := result
  cases stream? with
  | none =>
    rw [run]
    exact .of_handles_eq rfl keeps
  | some stream =>
    obtain none | ⟨access, asked, opens⟩ := opens
    · cases none
    obtain ⟨node, rfl, leads⟩ := opens stream rfl
    have opened : (w.store.newHandle { path, stream := some (streamOn node access) }).1 ∈
        (footprint r f args w).opened :=
      ⟨space, node, access, path, _, asked, run, leads⟩
    rw [run]
    exact .newHandle _ opened keeps

theorem staysWithin_openFile :
    StaysWithin ⟨descriptor "fOpen" ["path", "mode"], .ofBody [.string, .string] openFile⟩ := by
  intro r provided args w
  have call : r.call "fileio" "fOpen" args = _ := Registry.call_of_mem provided
  obtain ⟨e, refused⟩ | ⟨⟨path, mode, _⟩, carried, runs⟩ := Registry.callEntry_ofBody_cases r
    (descriptor "fOpen" ["path", "mode"]) [.string, .string] openFile args
  · exact Host.within_of_run ((congrArg (·.run w) call).trans (refused w))
  · obtain ⟨_, _, rfl, ⟨stamp, rfl⟩, rest⟩ := carried.exists_cons
    obtain ⟨_, _, rfl, ⟨modeStamp, rfl⟩, rfl⟩ := Arguments.Carried.exists_cons rest
    obtain ⟨keeps, opens⟩ := openInMode_spec w.files path mode
    refine within_of_opening rfl (call.trans runs) (keeps.mono (Set.empty_subset _))
      (opens.imp id ?_)
    exact fun ⟨access, asked, opens⟩ => ⟨access, asked stamp modeStamp, opens⟩

theorem staysWithin_createFile :
    StaysWithin ⟨descriptor "fCreate" ["path"], .ofBody [.string] createFile⟩ := by
  intro r provided args w
  have call : r.call "fileio" "fCreate" args = _ := Registry.call_of_mem provided
  obtain ⟨e, refused⟩ | ⟨⟨path, _⟩, carried, runs⟩ := Registry.callEntry_ofBody_cases r
    (descriptor "fCreate" ["path"]) [.string] createFile args
  · exact Host.within_of_run ((congrArg (·.run w) call).trans (refused w))
  · obtain ⟨_, _, rfl, ⟨stamp, rfl⟩, rfl⟩ := carried.exists_cons
    obtain ⟨opens, keeps⟩ := openToWrite_spec w.files path .readWrite true
    refine within_of_opening rfl (call.trans runs) (keeps.mono fun node emptied => ?_)
      (.inr ⟨.readWrite, .create stamp, opens⟩)
    exact .inr ⟨stamp, path, rfl, rfl, emptied.2⟩

theorem staysWithin {f : Registration} (member : f ∈ standard) : StaysWithin f := by
  revert f
  simp only [standard, Core.registrations, Files.registrations, Files.registrationsOn,
    List.cons_append, List.nil_append, List.forall_mem_cons]
  refine ⟨?typeName, ?toString, ?equals, ?tuple, ?strLen, ?dExists, ?dCreate, ?dUnlink, ?fUnlink,
    ?fCheckHandle, ?fOpen, ?fExists, ?fCreate, ?fGetPath, ?fClose, ?fReadLine, ?fLen, ?fGetPos,
    ?fSetPos, ?fRead, ?fWrite, ?fWriteLine, List.forall_mem_nil _⟩
  case typeName => exact staysWithin_of_body fun _ _ _ _ _ => Host.within_of_run rfl
  case toString => exact staysWithin_of_body fun _ _ _ _ _ => Host.within_of_run rfl
  case equals => exact staysWithin_of_body fun _ _ _ _ _ => Host.within_of_run rfl
  case tuple => exact staysWithin_of_body fun _ _ _ _ _ => Host.within_of_run rfl
  case strLen => exact staysWithin_of_body fun _ _ _ _ _ => Host.within_of_run rfl
  case dExists => exact staysWithin_of_body fun _ _ _ _ _ => Host.within_of_run rfl
  case dCreate => exact staysWithin_of_body fun _ _ x _ _ => createDirectory_within x.1
  case dUnlink => exact staysWithin_of_body fun _ _ x _ _ => removeDirectory_within x.1
  case fUnlink => exact staysWithin_of_body fun _ _ x _ _ => removeFile_within x.1
  case fCheckHandle => exact staysWithin_of_body fun _ _ _ _ _ => Host.within_of_run rfl
  case fOpen => exact staysWithin_openFile
  case fExists => exact staysWithin_of_body fun _ _ _ _ _ => Host.within_of_run rfl
  case fCreate => exact staysWithin_createFile
  case fGetPath => exact staysWithin_of_body fun _ _ _ _ _ => Host.within_of_run rfl
  case fClose => exact staysWithin_of_handle fun _ _ _ _ touched _ => closeHandle_within touched
  case fReadLine => exact staysWithin_of_handle fun _ _ _ _ touched _ => readLine_within touched
  case fLen => exact staysWithin_of_body fun _ _ _ _ _ => length_within
  case fGetPos => exact staysWithin_of_body fun _ _ _ _ _ => getPosition_within
  case fSetPos =>
    exact staysWithin_of_handle fun _ x _ _ touched _ => setPosition_within touched x.1
  case fRead => exact staysWithin_of_handle fun _ x _ _ touched _ => readBytes_within touched x.1
  case fWrite =>
    exact staysWithin_of_handle fun _ x _ _ touched changed =>
      writeBytes_within touched (changed (by decide)) x.1
  case fWriteLine =>
    exact staysWithin_of_handle fun _ x _ _ touched changed =>
      writeLine_within touched (changed (by decide)) x.1 x.2.1

end Library

end ScriptHost
