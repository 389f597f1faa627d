import ScriptHost.Proofs.Library.FileErrors
import ScriptHost.Proofs.Store.Handles

/-!
What the functions of the standard library do to handles. One of them closes a handle, two make new
ones, and those that move a stream put it back only where one was: no call opens a handle that was
closed, and none closes another handle than the one it was given.
-/

namespace ScriptHost

namespace Host

variable {α β : Type}

/-- Of the handles there were before, the action closes just the given ones, whether it ends with a
result or without. -/
def Closes (action : Host α) (w : World) (closed : Set HandleRef) : Prop :=
  w.store.Continues closed (action.run w).2.store

variable {action : Host α} {next : α → Host β} {w : World} {closed : Set HandleRef}

theorem Closes.bind (first : action.Closes w closed)
    (rest : ∀ a later, w.store.Continues closed later.store → (next a).Closes later ∅) :
    (action >>= next).Closes w closed := by
  rw [Closes] at first
  rw [Closes, run_bind]
  generalize action.run w = ended at first
  obtain ⟨a | a, later⟩ := ended
  · exact first
  · have both := first.trans (rest a later first)
    rwa [Set.union_empty] at both

theorem Closes.mapAbort (closes : action.Closes w closed) (f : Abort → Abort) :
    (action.mapAbort f).Closes w closed :=
  closes

theorem closes_of_run {result : Except Abort α} (run : action.run w = (result, w)) :
    action.Closes w ∅ := by
  rw [Closes, run]
  exact .refl _

theorem closes_pure (a : α) (w : World) : (pure a : Host α).Closes w ∅ :=
  closes_of_run rfl

theorem closes_fail (cause : EvalError.Cause) (w : World) : (fail cause : Host α).Closes w ∅ :=
  closes_of_run rfl

theorem closes_read (query : Store → α) (w : World) : (read query).Closes w ∅ :=
  closes_of_run rfl

theorem closes_readFiles (query : FileTree → α) (w : World) : (readFiles query).Closes w ∅ :=
  closes_of_run rfl

theorem closes_changeFiles (step : FileTree → α × FileTree) (w : World) :
    (changeFiles step).Closes w ∅ :=
  .refl _

theorem closes_change {step : Store → α × Store}
    (continues : w.store.Continues closed (step w.store).2) : (change step).Closes w closed :=
  continues

end Host

/-- Results that become values without a change to any handle. -/
class ToValue.LeavesHandles (ρ : Type) [ToValue ρ] : Prop where
  handles_toValue : ∀ (result : ρ) (s : Store), (toValue result s).2.handles = s.handles

namespace ToValue

instance : LeavesHandles Unit :=
  ⟨fun _ _ => rfl⟩

instance : LeavesHandles Bool :=
  ⟨fun _ _ => rfl⟩

instance : LeavesHandles Integer :=
  ⟨fun _ _ => rfl⟩

instance : LeavesHandles HandleRef :=
  ⟨fun _ _ => rfl⟩

instance : LeavesHandles String :=
  ⟨fun _ _ => rfl⟩

instance : LeavesHandles (Value × Value) :=
  ⟨fun _ _ => rfl⟩

instance : LeavesHandles (List UInt8) :=
  ⟨fun _ _ => rfl⟩

instance {α : Type} [ToValue α] [LeavesHandles α] : LeavesHandles (Option α) where
  handles_toValue result s := by
    cases result with
    | none => rfl
    | some a => exact LeavesHandles.handles_toValue a s

end ToValue

theorem Host.closes_give {ρ : Type} [ToValue ρ] [ToValue.LeavesHandles ρ] (result : ρ) (w : World) :
    (Host.give result).Closes w ∅ :=
  closes_change (.of_handles_eq (ToValue.LeavesHandles.handles_toValue result w.store))

namespace Library

namespace Core

variable (w : World)

theorem typeName_closes (v : Value) : (typeName v).Closes w ∅ :=
  Host.closes_pure _ w

theorem toText_closes (v : Value) : (toText v).Closes w ∅ :=
  Host.closes_read _ w

theorem equals_closes (a b : Value) : (equals a b).Closes w ∅ :=
  Host.closes_read _ w

theorem tuple_closes (a b : Value) : (tuple a b).Closes w ∅ :=
  Host.closes_pure _ w

theorem textLength_closes (text : String) : (textLength text).Closes w ∅ :=
  Host.closes_pure _ w

end Core

namespace Files

/-! ### Operations on handles -/

section Handles

variable (ref : HandleRef) (w : World)

theorem checkHandle_closes : (checkHandle ref).Closes w ∅ :=
  Host.closes_read _ w

theorem closeHandle_closes : (closeHandle ref).Closes w {ref} :=
  (Host.closes_change (.setStream_none w.store ref)).bind fun _ later _ =>
    Host.closes_pure () later

/-- What is done with a stream may rely on the handle being open. -/
theorem streamOf_bind_closes {α : Type} (operation : String) {next : Stream → Host α}
    (rest : ∀ stream, (w.store.handle ref).isOpen → (next stream).Closes w ∅) :
    (streamOf operation ref >>= next).Closes w ∅ := by
  rw [Host.Closes, run_streamOf_bind]
  split
  next stream found => exact rest stream (Option.isSome_of_eq_some found)
  next => exact .refl _

variable {ref w}

theorem keep_closes (isOpen : (w.store.handle ref).isOpen) (stream : Stream) :
    (keep ref stream).Closes w ∅ :=
  Host.closes_change (.setStream_some isOpen stream)

theorem keep_pure_closes {α : Type} (isOpen : (w.store.handle ref).isOpen) (stream : Stream)
    (a : α) : (keep ref stream >>= fun _ => pure a).Closes w ∅ :=
  (keep_closes isOpen stream).bind fun _ later _ => Host.closes_pure a later

variable (ref w)

theorem readLine_closes : (readLine ref).Closes w ∅ := by
  refine streamOf_bind_closes ref w _ fun stream isOpen =>
    (Host.closes_readFiles _ w).bind fun result later continues => ?_
  cases result with
  | none => exact Host.closes_pure _ later
  | some read => exact keep_pure_closes (continues.isOpen isOpen) read.2 _

theorem length_closes (os : OperatingSystem) : (length os ref).Closes w ∅ :=
  streamOf_bind_closes ref w _ fun _ _ =>
    (Host.closes_readFiles _ w).bind fun _ later _ => Host.closes_pure _ later

theorem getPosition_closes (os : OperatingSystem) : (getPosition os ref).Closes w ∅ :=
  streamOf_bind_closes ref w _ fun _ _ =>
    (Host.closes_readFiles _ w).bind fun _ later _ => Host.closes_pure _ later

theorem setPosition_closes (os : OperatingSystem) (position : Integer) :
    (setPosition os ref position).Closes w ∅ := by
  rw [setPosition]
  split
  next => exact Host.closes_fail _ w
  next =>
    refine streamOf_bind_closes ref w _ fun stream isOpen =>
      (Host.closes_readFiles _ w).bind fun result later continues => ?_
    cases result with
    | none => exact Host.closes_pure _ later
    | some moved => exact keep_closes (continues.isOpen isOpen) moved

theorem readBytes_closes (count : Integer) : (readBytes ref count).Closes w ∅ := by
  refine streamOf_bind_closes ref w _ fun stream isOpen => ?_
  split
  next => exact Host.closes_pure _ w
  next =>
    refine (Host.closes_readFiles _ w).bind fun result later continues => ?_
    cases result with
    | none => exact Host.closes_pure _ later
    | some read => exact keep_pure_closes (continues.isOpen isOpen) read.2 _

theorem writeAll_closes (operation : String) (data : List UInt8) :
    (writeAll operation ref data).Closes w ∅ := by
  refine streamOf_bind_closes ref w _ fun stream isOpen =>
    (Host.closes_changeFiles _ w).bind fun written later continues => ?_
  cases written with
  | none => exact Host.closes_pure _ later
  | some moved => exact keep_pure_closes (continues.isOpen isOpen) moved _

theorem writeBytes_closes (data : ArrayRef) : (writeBytes ref data).Closes w ∅ := by
  refine (Host.closes_read _ w).bind fun items later _ => ?_
  refine (Host.closes_of_run (Host.run_ofExcept later _)).bind fun bytes last _ => ?_
  exact writeAll_closes ref last _ bytes

theorem writeLine_closes (line encoding : String) : (writeLine ref line encoding).Closes w ∅ := by
  rw [writeLine]
  split
  next => exact Host.closes_fail _ w
  next => exact writeAll_closes ref w _ _

end Handles

/-! ### Operations on paths -/

section Paths

variable (path : String) (w : World)

theorem directoryExists_closes : (directoryExists path).Closes w ∅ :=
  Host.closes_readFiles _ w

theorem createDirectory_closes : (createDirectory path).Closes w ∅ :=
  Host.closes_changeFiles _ w

theorem removeDirectory_closes : (removeDirectory path).Closes w ∅ :=
  Host.closes_changeFiles _ w

theorem fileExists_closes : (fileExists path).Closes w ∅ :=
  Host.closes_readFiles _ w

theorem removeFile_closes : (removeFile path).Closes w ∅ :=
  Host.closes_changeFiles _ w

theorem getPath_closes : (getPath path).Closes w ∅ :=
  Host.closes_readFiles _ w

theorem handleOn_closes (stream : Option Stream) : (handleOn path stream).Closes w ∅ := by
  cases stream with
  | none => exact Host.closes_pure _ w
  | some stream =>
    exact (Host.closes_change (.newHandle w.store _)).bind fun _ later _ =>
      Host.closes_pure _ later

theorem openFile_closes (mode : String) : (openFile path mode).Closes w ∅ :=
  (Host.closes_changeFiles _ w).bind fun stream later _ => handleOn_closes path later stream

theorem createFile_closes : (createFile path).Closes w ∅ :=
  (Host.closes_changeFiles _ w).bind fun stream later _ => handleOn_closes path later stream

end Paths

end Files

/-! ### Calls -/

/-- The handles that a call of a function with some arguments closes. -/
def closedBy (f : Registration) (args : List Value) : Set HandleRef :=
  { ref | f.key = ("fileio", "fClose") ∧ args = [.filehandle ref] }

theorem closedBy_of_key_ne {f : Registration} (other : f.key ≠ ("fileio", "fClose"))
    (args : List Value) : closedBy f args = ∅ :=
  Set.eq_empty_of_forall_notMem fun _ both => other both.1

/-- Whether calls of a function close just the handles that they are to close. -/
def ClosesOnly (f : Registration) : Prop :=
  ∀ (r : Registry) (args : List Value) (w : World),
    (r.callEntry f args).Closes w (closedBy f args)

section Body

variable {ρ : Type} [ToValue ρ] [ToValue.LeavesHandles ρ] {params : List ParamType}
  {body : Signature (Host ρ) params} {d : Descriptor}

theorem closesOnly_of_body (other : d.key ≠ ("fileio", "fClose"))
    (closes : ∀ arguments w, (Signature.apply body arguments).Closes w ∅) :
    ClosesOnly ⟨d, .ofBody params body⟩ := by
  intro r args w
  rw [closedBy_of_key_ne (f := ⟨d, .ofBody params body⟩) other]
  obtain ⟨e, refused⟩ | ⟨arguments, _, runs⟩ := Registry.callEntry_ofBody_cases r d params body args
  · exact Host.closes_of_run (refused w)
  · rw [runs]
    exact ((closes arguments w).bind fun result later _ =>
      Host.closes_give result later).mapAbort _

end Body

theorem closesOnly_closeHandle :
    ClosesOnly ⟨Files.descriptor "fClose" ["handle"], .ofBody [.filehandle] Files.closeHandle⟩ := by
  intro r args w
  by_cases given : ∃ ref, args = [.filehandle ref]
  · obtain ⟨ref, rfl⟩ := given
    have just : closedBy ⟨Files.descriptor "fClose" ["handle"],
        .ofBody [.filehandle] Files.closeHandle⟩ [.filehandle ref] = {ref} := by
      refine Set.ext fun other => ⟨fun both => ?_, fun same => ⟨rfl, by rw [same]⟩⟩
      cases both.2
      rfl
    have carried : Arguments.Carried [.filehandle] [.filehandle ref] (ref, ()) := ⟨rfl, rfl⟩
    rw [just, Registry.callEntry_ofBody_of_carried carried]
    exact ((Files.closeHandle_closes ref w).bind fun result later _ =>
      Host.closes_give result later).mapAbort _
  · have nothing : closedBy ⟨Files.descriptor "fClose" ["handle"],
        .ofBody [.filehandle] Files.closeHandle⟩ args = ∅ :=
      Set.eq_empty_of_forall_notMem fun ref both => given ⟨ref, both.2⟩
    rw [nothing]
    obtain ⟨e, refused⟩ | ⟨arguments, carried, _⟩ := Registry.callEntry_ofBody_cases r
      (Files.descriptor "fClose" ["handle"]) [.filehandle] Files.closeHandle args
    · exact Host.closes_of_run (refused w)
    · obtain ⟨_, _, rfl, rfl, rfl⟩ := carried.exists_cons
      exact absurd ⟨_, rfl⟩ given

theorem closesOnly {f : Registration} (member : f ∈ standard) : ClosesOnly f := by
  revert f
  simp only [standard, Core.registrations, Files.registrations, Files.registrationsOn,
    List.cons_append, List.nil_append, List.forall_mem_cons]
  refine ⟨?typeName, ?toString, ?equals, ?tuple, ?strLen, ?dExists, ?dCreate, ?dUnlink, ?fUnlink,
    ?fCheckHandle, ?fOpen, ?fExists, ?fCreate, ?fGetPath, ?fClose, ?fReadLine, ?fLen, ?fGetPos,
    ?fSetPos, ?fRead, ?fWrite, ?fWriteLine, List.forall_mem_nil _⟩
  case typeName => exact closesOnly_of_body (by decide) fun x w => Core.typeName_closes w x.1
  case toString => exact closesOnly_of_body (by decide) fun x w => Core.toText_closes w x.1
  case equals => exact closesOnly_of_body (by decide) fun x w => Core.equals_closes w x.1 x.2.1
  case tuple => exact closesOnly_of_body (by decide) fun x w => Core.tuple_closes w x.1 x.2.1
  case strLen => exact closesOnly_of_body (by decide) fun x w => Core.textLength_closes w x.1
  case dExists => exact closesOnly_of_body (by decide) fun x => Files.directoryExists_closes x.1
  case dCreate => exact closesOnly_of_body (by decide) fun x => Files.createDirectory_closes x.1
  case dUnlink => exact closesOnly_of_body (by decide) fun x => Files.removeDirectory_closes x.1
  case fUnlink => exact closesOnly_of_body (by decide) fun x => Files.removeFile_closes x.1
  case fCheckHandle =>
    exact closesOnly_of_body (by decide) fun x => Files.checkHandle_closes x.1
  case fOpen => exact closesOnly_of_body (by decide) fun x w => Files.openFile_closes x.1 w x.2.1
  case fExists => exact closesOnly_of_body (by decide) fun x => Files.fileExists_closes x.1
  case fCreate => exact closesOnly_of_body (by decide) fun x => Files.createFile_closes x.1
  case fGetPath => exact closesOnly_of_body (by decide) fun x => Files.getPath_closes x.1
  case fClose => exact closesOnly_closeHandle
  case fReadLine => exact closesOnly_of_body (by decide) fun x => Files.readLine_closes x.1
  case fLen => exact closesOnly_of_body (by decide) fun x w => Files.length_closes x.1 w _
  case fGetPos => exact closesOnly_of_body (by decide) fun x w => Files.getPosition_closes x.1 w _
  case fSetPos =>
    exact closesOnly_of_body (by decide) fun x w => Files.setPosition_closes x.1 w _ x.2.1
  case fRead => exact closesOnly_of_body (by decide) fun x w => Files.readBytes_closes x.1 w x.2.1
  case fWrite =>
    exact closesOnly_of_body (by decide) fun x w => Files.writeBytes_closes x.1 w x.2.1
  case fWriteLine =>
    exact closesOnly_of_body (by decide) fun x w => Files.writeLine_closes x.1 w x.2.1 x.2.2.1

end Library

end ScriptHost
