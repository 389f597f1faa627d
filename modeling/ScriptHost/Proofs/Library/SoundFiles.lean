import ScriptHost.Proofs.FileTree.Sound
import ScriptHost.Proofs.Library.FileContents

/-!
Sound trees over a run. Every function of the standard library leaves a sound tree behind if it
finds one, whatever its arguments are and however it ends; so all trees that a run comes to are
sound if the first one is.
-/

namespace ScriptHost

namespace Host

variable {α β : Type} {action : Host α} {next : α → Host β}

/-- The action leaves a sound tree if it finds one, whether it ends with a result or without. -/
def KeepsSound (action : Host α) : Prop :=
  ∀ w, w.files.Sound → (action.run w).2.files.Sound

theorem KeepsSound.bind (first : action.KeepsSound) (rest : ∀ a, (next a).KeepsSound) :
    (action >>= next).KeepsSound := by
  intro w sound
  have between := first w sound
  rw [run_bind]
  generalize action.run w = ended at between
  obtain ⟨e | a, later⟩ := ended
  · exact between
  · exact rest a later between

theorem KeepsSound.mapAbort (keeps : action.KeepsSound) (f : Abort → Abort) :
    (action.mapAbort f).KeepsSound :=
  keeps

theorem keepsSound_of_files_eq (same : ∀ w, (action.run w).2.files = w.files) :
    action.KeepsSound := by
  intro w sound
  rwa [same]

theorem keepsSound_pure (a : α) : (pure a : Host α).KeepsSound :=
  keepsSound_of_files_eq fun _ => rfl

theorem keepsSound_fail (cause : EvalError.Cause) : (fail cause : Host α).KeepsSound :=
  keepsSound_of_files_eq fun _ => rfl

theorem keepsSound_read (query : Store → α) : (read query).KeepsSound :=
  keepsSound_of_files_eq fun _ => rfl

theorem keepsSound_readFiles (query : FileTree → α) : (readFiles query).KeepsSound :=
  keepsSound_of_files_eq fun _ => rfl

theorem keepsSound_change (step : Store → α × Store) : (change step).KeepsSound :=
  keepsSound_of_files_eq fun _ => rfl

theorem keepsSound_ofExcept (result : Except EvalError α) : (ofExcept result).KeepsSound :=
  keepsSound_of_files_eq fun w => by rw [run_ofExcept]

theorem keepsSound_changeFiles {step : FileTree → α × FileTree}
    (sound : ∀ files, files.Sound → (step files).2.Sound) : (changeFiles step).KeepsSound :=
  fun w => sound w.files

end Host

namespace Library

open Host

namespace Files

/-! ### Operations on handles -/

section Handles

variable (ref : HandleRef)

theorem streamOf_keepsSound (operation : String) : (streamOf operation ref).KeepsSound := by
  refine (keepsSound_read _).bind fun handle => ?_
  split
  next => exact keepsSound_pure _
  next => exact keepsSound_fail _

theorem readLine_keepsSound : (readLine ref).KeepsSound := by
  refine (streamOf_keepsSound ref _).bind fun stream =>
    (keepsSound_readFiles _).bind fun result => ?_
  split
  next => exact keepsSound_pure _
  next => exact (keepsSound_change _).bind fun _ => keepsSound_pure _

theorem length_keepsSound (os : OperatingSystem) : (length os ref).KeepsSound :=
  (streamOf_keepsSound ref _).bind fun _ => (keepsSound_readFiles _).bind fun _ => keepsSound_pure _

theorem getPosition_keepsSound (os : OperatingSystem) : (getPosition os ref).KeepsSound :=
  (streamOf_keepsSound ref _).bind fun _ => (keepsSound_readFiles _).bind fun _ => keepsSound_pure _

theorem setPosition_keepsSound (os : OperatingSystem) (position : Integer) :
    (setPosition os ref position).KeepsSound := by
  rw [setPosition]
  split
  next => exact keepsSound_fail _
  next =>
    refine (streamOf_keepsSound ref _).bind fun stream =>
      (keepsSound_readFiles _).bind fun result => ?_
    split
    next => exact keepsSound_pure _
    next => exact keepsSound_change _

theorem readBytes_keepsSound (count : Integer) : (readBytes ref count).KeepsSound := by
  refine (streamOf_keepsSound ref _).bind fun stream => ?_
  split
  next => exact keepsSound_pure _
  next =>
    refine (keepsSound_readFiles _).bind fun result => ?_
    split
    next => exact keepsSound_pure _
    next => exact (keepsSound_change _).bind fun _ => keepsSound_pure _

theorem sound_write? {stream moved : Stream} {files changed : FileTree} {data : List UInt8}
    (sound : files.Sound) (written : stream.write? files data = some (moved, changed)) :
    changed.Sound := by
  unfold Stream.write? at written
  split at written
  next =>
    cases written
    exact sound
  next =>
    split at written
    next =>
      obtain ⟨content, _, same⟩ := Option.map_eq_some_iff.1 written
      cases same
      exact sound.setContent _ _
    next => cases written

theorem writeAll_keepsSound (operation : String) (data : List UInt8) :
    (writeAll operation ref data).KeepsSound := by
  refine (streamOf_keepsSound ref _).bind fun stream =>
    (keepsSound_changeFiles fun files sound => ?_).bind fun written => ?_
  · split
    next moved changed written => exact sound_write? sound written
    next => exact sound
  · split
    next => exact keepsSound_pure _
    next => exact (keepsSound_change _).bind fun _ => keepsSound_pure _

theorem writeBytes_keepsSound (data : ArrayRef) : (writeBytes ref data).KeepsSound :=
  (keepsSound_read _).bind fun _ =>
    (keepsSound_ofExcept _).bind fun bytes => writeAll_keepsSound ref _ bytes

theorem writeLine_keepsSound (line encoding : String) :
    (writeLine ref line encoding).KeepsSound := by
  rw [writeLine]
  split
  next => exact keepsSound_fail _
  next => exact writeAll_keepsSound ref _ _

theorem closeHandle_keepsSound : (closeHandle ref).KeepsSound :=
  (keepsSound_change _).bind fun _ => keepsSound_pure _

end Handles

/-! ### Operations on paths -/

section Paths

variable (path : String)

theorem createDirectory_keepsSound : (createDirectory path).KeepsSound :=
  keepsSound_changeFiles fun _ sound => sound.createDirectories path

theorem removeDirectory_keepsSound : (removeDirectory path).KeepsSound := by
  refine keepsSound_changeFiles fun files sound => ?_
  split
  next removed => exact sound.removeDirectory removed
  next => exact sound

theorem removeFile_keepsSound : (removeFile path).KeepsSound := by
  refine keepsSound_changeFiles fun files sound => ?_
  split
  next removed => exact sound.removeFile removed
  next => exact sound

theorem sound_openToWrite {files : FileTree} (sound : files.Sound) (access : Access)
    (truncate : Bool) : (openToWrite files path access truncate).2.Sound := by
  unfold openToWrite
  split
  next opened => exact sound.openOrCreate opened
  next => exact sound

theorem handleOn_keepsSound (stream : Option Stream) : (handleOn path stream).KeepsSound := by
  cases stream with
  | none => exact keepsSound_pure _
  | some stream => exact (keepsSound_change _).bind fun _ => keepsSound_pure _

theorem openFile_keepsSound (mode : String) : (openFile path mode).KeepsSound := by
  refine (keepsSound_changeFiles fun files sound => ?_).bind (handleOn_keepsSound path)
  unfold openInMode
  split
  next =>
    rw [(openToRead_spec files path).2]
    exact sound
  next => exact sound_openToWrite path sound _ _
  next => exact sound_openToWrite path sound _ _
  next => exact sound

theorem createFile_keepsSound : (createFile path).KeepsSound :=
  (keepsSound_changeFiles fun _ sound => sound_openToWrite path sound _ _).bind
    (handleOn_keepsSound path)

end Paths

end Files

/-! ### Calls -/

open Files

/-- Whether calls of a function leave sound trees. -/
def CallsKeepSound (f : Registration) : Prop :=
  ∀ (r : Registry), f ∈ r.entries → ∀ args,
    (r.call f.descriptor.space f.descriptor.name args).KeepsSound

theorem callsKeepSound_of_body {ρ : Type} [ToValue ρ] {params : List ParamType} {d : Descriptor}
    {body : Signature (Host ρ) params}
    (keeps : ∀ arguments, (Signature.apply body arguments).KeepsSound) :
    CallsKeepSound ⟨d, .ofBody params body⟩ := by
  intro r provided args
  rw [Registry.call_of_mem provided]
  obtain ⟨e, refused⟩ | ⟨arguments, _, runs⟩ :=
    Registry.callEntry_ofBody_cases r d params body args
  · exact keepsSound_of_files_eq fun w => by rw [refused w]
  · rw [runs]
    exact ((keeps arguments).bind fun _ => keepsSound_change _).mapAbort _

theorem callsKeepSound {f : Registration} (member : f ∈ standard) : CallsKeepSound f := by
  revert f
  simp only [standard, Core.registrations, Files.registrations, Files.registrationsOn,
    List.cons_append, List.nil_append, List.forall_mem_cons]
  refine ⟨?typeName, ?toString, ?equals, ?tuple, ?strLen, ?dExists, ?dCreate, ?dUnlink, ?fUnlink,
    ?fCheckHandle, ?fOpen, ?fExists, ?fCreate, ?fGetPath, ?fClose, ?fReadLine, ?fLen, ?fGetPos,
    ?fSetPos, ?fRead, ?fWrite, ?fWriteLine, List.forall_mem_nil _⟩
  case typeName => exact callsKeepSound_of_body fun _ => keepsSound_of_files_eq fun _ => rfl
  case toString => exact callsKeepSound_of_body fun _ => keepsSound_of_files_eq fun _ => rfl
  case equals => exact callsKeepSound_of_body fun _ => keepsSound_of_files_eq fun _ => rfl
  case tuple => exact callsKeepSound_of_body fun _ => keepsSound_of_files_eq fun _ => rfl
  case strLen => exact callsKeepSound_of_body fun _ => keepsSound_of_files_eq fun _ => rfl
  case dExists => exact callsKeepSound_of_body fun _ => keepsSound_of_files_eq fun _ => rfl
  case dCreate => exact callsKeepSound_of_body fun x => createDirectory_keepsSound x.1
  case dUnlink => exact callsKeepSound_of_body fun x => removeDirectory_keepsSound x.1
  case fUnlink => exact callsKeepSound_of_body fun x => removeFile_keepsSound x.1
  case fCheckHandle => exact callsKeepSound_of_body fun _ => keepsSound_of_files_eq fun _ => rfl
  case fOpen => exact callsKeepSound_of_body fun x => openFile_keepsSound x.1 x.2.1
  case fExists => exact callsKeepSound_of_body fun _ => keepsSound_of_files_eq fun _ => rfl
  case fCreate => exact callsKeepSound_of_body fun x => createFile_keepsSound x.1
  case fGetPath => exact callsKeepSound_of_body fun _ => keepsSound_of_files_eq fun _ => rfl
  case fClose => exact callsKeepSound_of_body fun x => closeHandle_keepsSound x.1
  case fReadLine => exact callsKeepSound_of_body fun x => readLine_keepsSound x.1
  case fLen => exact callsKeepSound_of_body fun x => length_keepsSound x.1 _
  case fGetPos => exact callsKeepSound_of_body fun x => getPosition_keepsSound x.1 _
  case fSetPos => exact callsKeepSound_of_body fun x => setPosition_keepsSound x.1 _ x.2.1
  case fRead => exact callsKeepSound_of_body fun x => readBytes_keepsSound x.1 x.2.1
  case fWrite => exact callsKeepSound_of_body fun x => writeBytes_keepsSound x.1 x.2.1
  case fWriteLine => exact callsKeepSound_of_body fun x => writeLine_keepsSound x.1 x.2.1 x.2.2.1

end Library

namespace Action

variable {r : Registry} (provides : ∀ f ∈ Library.standard, f ∈ r.entries)
include provides

theorem sound_perform {w : World} (sound : w.files.Sound) (action : Action) :
    (action.perform r w).files.Sound := by
  cases action with
  | call f provided args =>
    exact Library.callsKeepSound provided r (provides f provided) args w sound
  | close ref => exact sound
  | newHandle handle => exact sound
  | copy copying => exact sound

theorem sound_performAll {start : World} (sound : start.files.Sound) (actions : List Action) :
    (performAll r start actions).files.Sound := by
  induction actions generalizing start with
  | nil => exact sound
  | cons action rest ih => exact ih (sound_perform provides sound action)

end Action

end ScriptHost
