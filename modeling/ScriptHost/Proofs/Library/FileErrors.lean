import ScriptHost.Library.Standard
import ScriptHost.Proofs.Host
import ScriptHost.Proofs.Registry.Call

/-!
When the functions of the `fileio` module fail. Failures of the operating system are results, so
what is left are the few wrong uses of handles and data, each with its own error, whatever the
system refuses. A call that fails has changed neither the store nor the file system; all other calls
have a result.
-/

namespace ScriptHost.Library.Files

/-! ### The documented errors -/

/-- The error of an operation on a closed handle. -/
def closedError (store : Store) (operation : String) (ref : HandleRef) : Option EvalError :=
  if (store.handle ref).isOpen then none else some { cause := .invalidHandle operation }

/-- The error of items that are not all byte values: it tells the type and the index of the first
other one, where the indices of the items start at `first`. -/
def noByteError (first : Nat) (items : List Value) : Option EvalError :=
  ((items.zipIdx first).find? (·.1.tag ≠ .byte)).map fun (item, index) =>
    { cause := .typeMismatch "byte" item.typeName
      notes := ["element " ++ index.repr ++ " of argument 2"] }

/-- The error that a call of a function of the module has to give, if it has to give one. -/
def documentedError (store : Store) : String → List Value → Option EvalError
  | "fReadLine", [.filehandle ref] => closedError store "fReadLine" ref
  | "fLen", [.filehandle ref] => closedError store "fLen" ref
  | "fGetPos", [.filehandle ref] => closedError store "fGetPos" ref
  | "fRead", [.filehandle ref, .integer _] => closedError store "fRead" ref
  | "fSetPos", [.filehandle ref, .integer position] =>
    if position.val < 0 then
      some { cause := .invalidArgument "fSetPos"
              ("position must not be negative, got " ++ position.toText) }
    else closedError store "fSetPos" ref
  | "fWrite", [.filehandle ref, .array data] =>
    (noByteError 0 (store.items data)).or (closedError store "fWrite" ref)
  | "fWriteLine", [.filehandle ref, _, .string _ encoding] =>
    if encoding ∈ ["ascii", "unicode", "utf8"] then closedError store "fWriteLine" ref
    else some { cause := .unsupportedLiteral "encoding" encoding }
  | _, _ => none

/-- The names of the functions that can fail. -/
def failing : List String :=
  ["fReadLine", "fLen", "fGetPos", "fSetPos", "fRead", "fWrite", "fWriteLine"]

theorem documentedError_of_notMem {name : String} (other : name ∉ failing) (store : Store)
    (args : List Value) : documentedError store name args = none := by
  simp only [failing, List.mem_cons, List.not_mem_nil, or_false, not_or] at other
  unfold documentedError
  split <;> first | rfl | simp at other

/-! ### Operations on handles -/

section Handles

variable (ref : HandleRef) (w : World)

theorem run_streamOf_bind {α : Type} (operation : String) (next : Stream → Host α) :
    (streamOf operation ref >>= next).run w =
      match (w.store.handle ref).stream with
      | some stream => (next stream).run w
      | none => (.error (.error { cause := .invalidHandle operation }), w) := by
  rw [Host.run_bind, streamOf, Host.run_bind, Host.run_read]
  dsimp only
  cases (w.store.handle ref).stream <;> rfl

variable {ref w} in
/-- A body that needs the stream of an open handle goes on with it. -/
theorem run_streamOf_bind_of_isOn {α : Type} {stream : Stream}
    (isOn : (w.store.handle ref).stream = some stream) (operation : String)
    (next : Stream → Host α) :
    (streamOf operation ref >>= next).run w = (next stream).run w := by
  rw [run_streamOf_bind, isOn]

theorem streamOf_failsAs (operation : String) :
    (streamOf operation ref).FailsAs w (closedError w.store operation ref) := by
  refine .bind_of_run (Host.run_read w _) ?_
  rw [closedError, Handle.isOpen]
  cases (w.store.handle ref).stream with
  | some stream => exact Host.neverFails_pure stream w
  | none => exact Host.failsAs_fail _ w

theorem keep_neverFails (stream : Stream) : (keep ref stream).NeverFails :=
  Host.neverFails_change _

theorem readLine_failsAs : (readLine ref).FailsAs w (closedError w.store "fReadLine" ref) := by
  refine (streamOf_failsAs ref w _).bind fun stream =>
    (Host.neverFails_readFiles _).bind fun result => ?_
  cases result with
  | none => exact Host.neverFails_pure _
  | some read => exact (keep_neverFails ref read.2).bind fun _ => Host.neverFails_pure _

theorem length_failsAs (os : OperatingSystem) :
    (length os ref).FailsAs w (closedError w.store "fLen" ref) :=
  (streamOf_failsAs ref w _).bind fun _ =>
    (Host.neverFails_readFiles _).bind fun _ => Host.neverFails_pure _

theorem getPosition_failsAs (os : OperatingSystem) :
    (getPosition os ref).FailsAs w (closedError w.store "fGetPos" ref) :=
  (streamOf_failsAs ref w _).bind fun _ =>
    (Host.neverFails_readFiles _).bind fun _ => Host.neverFails_pure _

theorem setPosition_failsAs (os : OperatingSystem) (position : Integer) :
    (setPosition os ref position).FailsAs w
      (documentedError w.store "fSetPos" [.filehandle ref, .integer position]) := by
  rw [setPosition, documentedError]
  split
  next negative => exact Host.failsAs_fail _ w
  next =>
    refine (streamOf_failsAs ref w _).bind fun stream =>
      (Host.neverFails_readFiles _).bind fun result => ?_
    cases result with
    | none => exact Host.neverFails_pure _
    | some moved => exact keep_neverFails ref moved

theorem readBytes_failsAs (count : Integer) :
    (readBytes ref count).FailsAs w (closedError w.store "fRead" ref) := by
  refine (streamOf_failsAs ref w _).bind fun stream => ?_
  split
  next => exact Host.neverFails_pure _
  next =>
    refine (Host.neverFails_readFiles _).bind fun result => ?_
    cases result with
    | none => exact Host.neverFails_pure _
    | some read => exact (keep_neverFails ref read.2).bind fun _ => Host.neverFails_pure _

theorem writeAll_failsAs (operation : String) (data : List UInt8) :
    (writeAll operation ref data).FailsAs w (closedError w.store operation ref) := by
  refine (streamOf_failsAs ref w _).bind fun stream =>
    (Host.neverFails_changeFiles _).bind fun written => ?_
  cases written with
  | none => exact Host.neverFails_pure _
  | some moved => exact (keep_neverFails ref moved).bind fun _ => Host.neverFails_pure _

theorem noByteError_cons (first : Nat) (item : Value) (rest : List Value) :
    noByteError first (item :: rest) =
      if item.tag = .byte then noByteError (first + 1) rest
      else some
        { cause := .typeMismatch "byte" item.typeName
          notes := ["element " ++ first.repr ++ " of argument 2"] } := by
  rw [noByteError, List.zipIdx_cons, List.find?_cons]
  split
  next other => rw [if_neg (of_decide_eq_true other)]; rfl
  next same => rw [if_pos (Decidable.not_not.1 (of_decide_eq_false same))]; rfl

theorem bytesFrom_spec (items : List Value) (first : Nat) :
    (∃ bytes, noByteError first items = none ∧ bytesFrom first items = .ok bytes) ∨
      ∃ e, noByteError first items = some e ∧ bytesFrom first items = .error e := by
  induction items generalizing first with
  | nil => exact .inl ⟨[], rfl, rfl⟩
  | cons item rest ih =>
    rw [noByteError_cons, bytesFrom]
    cases item with
    | byte b =>
      rw [if_pos (show (Value.byte b).tag = .byte from rfl)]
      obtain ⟨bytes, fine, made⟩ | ⟨e, wrong, refused⟩ := ih (first + 1)
      · exact .inl ⟨b :: bytes, fine, congrArg (Except.map (b :: ·)) made⟩
      · exact .inr ⟨e, wrong, congrArg (Except.map (b :: ·)) refused⟩
    | _ => exact .inr ⟨_, rfl, rfl⟩

theorem writeBytes_failsAs (data : ArrayRef) :
    (writeBytes ref data).FailsAs w
      (documentedError w.store "fWrite" [.filehandle ref, .array data]) := by
  refine .bind_of_run (Host.run_read w _) ?_
  rw [documentedError]
  obtain ⟨bytes, fine, made⟩ | ⟨e, wrong, refused⟩ := bytesFrom_spec (w.store.items data) 0
  · rw [made, fine, Option.none_or]
    exact .bind_of_run rfl (writeAll_failsAs ref w _ bytes)
  · rw [refused, wrong, Option.some_or]
    exact Host.run_bind w _ _

theorem ofName?_eq_none_iff (name : String) :
    LineEncoding.ofName? name = none ↔ name ∉ ["ascii", "unicode", "utf8"] := by
  unfold LineEncoding.ofName?
  split <;> simp_all

theorem writeLine_failsAs (line encoding : String) (stamp : Stamp) (text : Value) :
    (writeLine ref line encoding).FailsAs w
      (documentedError w.store "fWriteLine" [.filehandle ref, text, .string stamp encoding]) := by
  rw [writeLine, documentedError]
  split
  next unknown =>
    rw [if_neg ((ofName?_eq_none_iff encoding).1 unknown)]
    exact Host.failsAs_fail _ w
  next known here =>
    have named : encoding ∈ ["ascii", "unicode", "utf8"] := by
      refine Decidable.not_not.1 fun other => ?_
      rw [(ofName?_eq_none_iff encoding).2 other] at here
      cases here
    rw [if_pos named]
    exact writeAll_failsAs ref w _ _

theorem checkHandle_neverFails : (checkHandle ref).NeverFails :=
  Host.neverFails_read _

theorem closeHandle_neverFails : (closeHandle ref).NeverFails :=
  (Host.neverFails_change _).bind fun _ => Host.neverFails_pure _

end Handles

/-! ### Operations on paths -/

section Paths

variable (path : String)

theorem directoryExists_neverFails : (directoryExists path).NeverFails :=
  Host.neverFails_readFiles _

theorem createDirectory_neverFails : (createDirectory path).NeverFails :=
  Host.neverFails_changeFiles _

theorem removeDirectory_neverFails : (removeDirectory path).NeverFails :=
  Host.neverFails_changeFiles _

theorem fileExists_neverFails : (fileExists path).NeverFails :=
  Host.neverFails_readFiles _

theorem removeFile_neverFails : (removeFile path).NeverFails :=
  Host.neverFails_changeFiles _

theorem getPath_neverFails : (getPath path).NeverFails :=
  Host.neverFails_readFiles _

theorem handleOn_neverFails (stream : Option Stream) : (handleOn path stream).NeverFails := by
  cases stream with
  | none => exact Host.neverFails_pure _
  | some stream => exact (Host.neverFails_change _).bind fun _ => Host.neverFails_pure _

theorem openFile_neverFails (mode : String) : (openFile path mode).NeverFails :=
  (Host.neverFails_changeFiles _).bind (handleOn_neverFails path)

theorem createFile_neverFails : (createFile path).NeverFails :=
  (Host.neverFails_changeFiles _).bind (handleOn_neverFails path)

end Paths

/-! ### Calls -/

/-- Whether a function fails exactly as documented when its arguments have the right types. -/
def FailsAsDocumented (f : Registration) : Prop :=
  ∀ args w, List.Forall₂ ParamType.Takes f.function.params args →
    (f.function.invoke args).FailsAs w (documentedError w.store f.descriptor.name args)

section Body

variable {ρ : Type} [ToValue ρ] {params : List ParamType} {body : Signature (Host ρ) params}
  {name : String} {labels : List String}

theorem failsAsDocumented_of_body
    (fails : ∀ args arguments w, Arguments.Carried params args arguments →
      (Signature.apply body arguments).FailsAs w (documentedError w.store name args)) :
    FailsAsDocumented ⟨descriptor name labels, .ofBody params body⟩ := by
  intro args w (takes : List.Forall₂ ParamType.Takes params args)
  obtain ⟨arguments, carried⟩ := exists_carried takes
  show ((Native.typed params (Native.giving params body)).invoke args).FailsAs w _
  rw [Native.invoke_of_carried carried, Native.apply_giving]
  exact (fails args arguments w carried).bind Host.neverFails_give

theorem failsAsDocumented_of_neverFails (other : name ∉ failing)
    (never : ∀ arguments, (Signature.apply body arguments).NeverFails) :
    FailsAsDocumented ⟨descriptor name labels, .ofBody params body⟩ := by
  refine failsAsDocumented_of_body fun args arguments w _ => ?_
  rw [documentedError_of_notMem other]
  exact never arguments w

theorem failsAsDocumented_of_handle {body : HandleRef → Host ρ}
    (fails : ∀ ref w, (body ref).FailsAs w (documentedError w.store name [.filehandle ref])) :
    FailsAsDocumented ⟨descriptor name labels, .ofBody [.filehandle] body⟩ := by
  refine failsAsDocumented_of_body fun args ⟨ref, _⟩ w carried => ?_
  obtain ⟨_, _, rfl, rfl, rfl⟩ := carried.exists_cons
  exact fails ref w

end Body

theorem failsAsDocumented {os : OperatingSystem} {f : Registration}
    (member : f ∈ registrationsOn os) : FailsAsDocumented f := by
  revert f
  simp only [registrationsOn, List.forall_mem_cons]
  refine ⟨?dExists, ?dCreate, ?dUnlink, ?fUnlink, ?fCheckHandle, ?fOpen, ?fExists, ?fCreate,
    ?fGetPath, ?fClose, ?fReadLine, ?fLen, ?fGetPos, ?fSetPos, ?fRead, ?fWrite, ?fWriteLine, ?_⟩
  case dExists =>
    exact failsAsDocumented_of_neverFails (by decide) fun x => directoryExists_neverFails x.1
  case dCreate =>
    exact failsAsDocumented_of_neverFails (by decide) fun x => createDirectory_neverFails x.1
  case dUnlink =>
    exact failsAsDocumented_of_neverFails (by decide) fun x => removeDirectory_neverFails x.1
  case fUnlink =>
    exact failsAsDocumented_of_neverFails (by decide) fun x => removeFile_neverFails x.1
  case fCheckHandle =>
    exact failsAsDocumented_of_neverFails (by decide) fun x => checkHandle_neverFails x.1
  case fOpen =>
    exact failsAsDocumented_of_neverFails (by decide) fun x => openFile_neverFails x.1 x.2.1
  case fExists =>
    exact failsAsDocumented_of_neverFails (by decide) fun x => fileExists_neverFails x.1
  case fCreate =>
    exact failsAsDocumented_of_neverFails (by decide) fun x => createFile_neverFails x.1
  case fGetPath =>
    exact failsAsDocumented_of_neverFails (by decide) fun x => getPath_neverFails x.1
  case fClose =>
    exact failsAsDocumented_of_neverFails (by decide) fun x => closeHandle_neverFails x.1
  case fReadLine => exact failsAsDocumented_of_handle readLine_failsAs
  case fLen => exact failsAsDocumented_of_handle fun ref w => length_failsAs ref w os
  case fGetPos => exact failsAsDocumented_of_handle fun ref w => getPosition_failsAs ref w os
  case fSetPos =>
    refine failsAsDocumented_of_body fun args ⟨ref, position, _⟩ w carried => ?_
    obtain ⟨_, _, rfl, rfl, rest⟩ := carried.exists_cons
    obtain ⟨_, _, rfl, rfl, rfl⟩ := Arguments.Carried.exists_cons rest
    exact setPosition_failsAs ref w os position
  case fRead =>
    refine failsAsDocumented_of_body fun args ⟨ref, count, _⟩ w carried => ?_
    obtain ⟨_, _, rfl, rfl, rest⟩ := carried.exists_cons
    obtain ⟨_, _, rfl, rfl, rfl⟩ := Arguments.Carried.exists_cons rest
    exact readBytes_failsAs ref w count
  case fWrite =>
    refine failsAsDocumented_of_body fun args ⟨ref, data, _⟩ w carried => ?_
    obtain ⟨_, _, rfl, rfl, rest⟩ := carried.exists_cons
    obtain ⟨_, _, rfl, rfl, rfl⟩ := Arguments.Carried.exists_cons rest
    exact writeBytes_failsAs ref w data
  case fWriteLine =>
    refine failsAsDocumented_of_body fun args ⟨ref, line, encoding, _⟩ w carried => ?_
    obtain ⟨_, _, rfl, rfl, rest⟩ := carried.exists_cons
    obtain ⟨text, _, rfl, _, rest⟩ := Arguments.Carried.exists_cons rest
    obtain ⟨_, _, rfl, ⟨stamp, rfl⟩, rfl⟩ := Arguments.Carried.exists_cons rest
    exact writeLine_failsAs ref w line encoding stamp text
  exact List.forall_mem_nil _

section Calls

variable {os : OperatingSystem} {r : Registry} {f : Registration} {args : List Value}

theorem space_of_mem (member : f ∈ registrationsOn os) : f.descriptor.space = space := by
  revert f
  simp [registrationsOn, descriptor]

theorem call_of_mem (member : f ∈ registrationsOn os) (registered : f ∈ r.entries) :
    r.call space f.descriptor.name args = r.callEntry f args := by
  rw [← space_of_mem member]
  exact Registry.call_of_mem registered

/-- On any operating system and through any registry in which it is registered, each function of the
module fails exactly when it is documented to, with the documented error and a note of the call, and
then the store and the file system are unchanged. Otherwise it has a result. -/
theorem call_failsAs (os : OperatingSystem) (r : Registry) {f : Registration}
    (member : f ∈ registrationsOn os) (registered : f ∈ r.entries) {args : List Value}
    (takes : List.Forall₂ ParamType.Takes f.function.params args) (w : World) :
    (r.call space f.descriptor.name args).FailsAs w
      ((documentedError w.store f.descriptor.name args).map
        (·.withNote ("in call to fileio." ++ f.descriptor.name))) := by
  have count : args.length = f.function.arity :=
    takes.length_eq.symm.trans f.function.length_params
  rw [call_of_mem member registered, Registry.callEntry_of_count count]
  refine (failsAsDocumented member args w takes).mapAbort fun e => ?_
  rw [Registry.explain, Descriptor.qualifiedName, space_of_mem member]
  rfl

section Refusal

variable (provides : ∀ f ∈ registrationsOn os, f ∈ r.entries) {w later : World}
include provides

/-- A call whose run has a result hands it to the script. -/
theorem run_call_of_run {ρ : Type} [ToValue ρ] {name : String} {labels : List String} (index : Nat)
    (params : List ParamType) (body : Signature (Host ρ) params)
    (here : (registrationsOn os)[index]? = some ⟨descriptor name labels, .ofBody params body⟩)
    {arguments : Arguments params} (carried : Arguments.Carried params args arguments) {result : ρ}
    (run : (Signature.apply body arguments).run w = (.ok result, later)) :
    (r.call space name args).run w =
      (.ok (ToValue.toValue result later.store).1,
        { later with store := (ToValue.toValue result later.store).2 }) := by
  have member := List.mem_of_getElem? here
  have entry : r.call space name args = _ := call_of_mem member (provides _ member)
  rw [entry, Registry.callEntry_ofBody_of_carried carried, Host.run_mapAbort, Host.run_bind, run]
  rfl

/-- What a call gives that the operating system refuses: -1 for the length and for the position, and
nothing for a new position, with the stream where it was. -/
theorem call_of_refusal {ref : HandleRef} {stream : Stream}
    (isOn : (w.store.handle ref).stream = some stream) :
    (os.tellsLength w.files stream = false →
      (r.call space "fLen" [.filehandle ref]).run w = (.ok (.integer .minusOne), w)) ∧
    (os.tellsPosition w.files stream = false →
      (r.call space "fGetPos" [.filehandle ref]).run w = (.ok (.integer .minusOne), w)) ∧
    ∀ position : Integer, 0 ≤ position.val →
      os.goesTo w.files stream position.val.toNat = false →
      (r.call space "fSetPos" [.filehandle ref, .integer position]).run w = (.ok .void, w) := by
  have handle : Arguments.Carried [.filehandle] [.filehandle ref] (ref, ()) := ⟨rfl, rfl⟩
  refine ⟨fun refused => ?length, fun refused => ?position, fun position valid refused => ?move⟩
  case length =>
    have body : (length os ref).run w = (.ok .minusOne, w) := by
      rw [length, run_streamOf_bind_of_isOn isOn, Host.run_bind, Host.run_readFiles,
        Stream.length?, refused]
      rfl
    exact run_call_of_run provides 11 [.filehandle] (length os) rfl handle body
  case position =>
    have body : (getPosition os ref).run w = (.ok .minusOne, w) := by
      rw [getPosition, run_streamOf_bind_of_isOn isOn, Host.run_bind, Host.run_readFiles,
        Stream.position?, refused]
      rfl
    exact run_call_of_run provides 12 [.filehandle] (getPosition os) rfl handle body
  case move =>
    have carried : Arguments.Carried [.filehandle, .integer]
        [.filehandle ref, .integer position] (ref, position, ()) := ⟨rfl, rfl, rfl⟩
    have body : (setPosition os ref position).run w = (.ok (), w) := by
      rw [setPosition, if_neg (Int.not_lt.2 valid), run_streamOf_bind_of_isOn isOn, Host.run_bind,
        Host.run_readFiles, Stream.seek?, refused]
      rfl
    exact run_call_of_run provides 13 [.filehandle, .integer] (setPosition os) rfl carried body

end Refusal

/-- The operating system that refuses everything. -/
def refusing : OperatingSystem where
  tellsLength _ _ := false
  tellsPosition _ _ := false
  goesTo _ _ _ := false
  directoryLength _ _ := 0

/-- The functions of the module on the system that refuses everything. -/
def refusingRegistry : Registry :=
  (({} : RegistryBuilder).registerAll (registrationsOn refusing)).1.build

theorem entries_refusingRegistry : refusingRegistry.entries = registrationsOn refusing :=
  rfl

/-- Even if the operating system goes nowhere, a position is an error only if it is negative, and
then also on a handle that is not open. -/
theorem call_setPosition_refused :
    let w : World :=
      { store := { handles := #[⟨"f", some ⟨⟨0⟩, 0, .readWrite⟩⟩] }
        files := { nodes := #[], workingNode := ⟨0⟩, workingPath := [] } }
    (refusingRegistry.call "fileio" "fSetPos" [.filehandle ⟨1⟩, .integer .minusOne]).FailsAs w
        (some { cause := .invalidArgument "fSetPos" "position must not be negative, got -1"
                notes := ["in call to fileio.fSetPos"] }) ∧
      (refusingRegistry.call "fileio" "fSetPos" [.filehandle ⟨0⟩, .integer 1]).FailsAs w none ∧
      (refusingRegistry.call "fileio" "fSetPos" [.filehandle ⟨0⟩, .integer 1]).run w =
        (.ok .void, w) := by
  intro w
  have provides : ∀ f ∈ registrationsOn refusing, f ∈ refusingRegistry.entries := by
    rw [entries_refusingRegistry]
    exact fun _ => id
  have member : (registrationsOn refusing)[13] ∈ registrationsOn refusing := List.getElem_mem _
  have typed : ∀ ref position, List.Forall₂ ParamType.Takes [.filehandle, .integer]
      [.filehandle ref, .integer position] :=
    fun _ _ => .cons (.inr rfl) (.cons (.inr rfl) .nil)
  have fails := fun ref position =>
    call_failsAs refusing refusingRegistry member (provides _ member) (typed ref position) w
  have isOn : (w.store.handle ⟨0⟩).stream = some ⟨⟨0⟩, 0, .readWrite⟩ := rfl
  exact ⟨fails ⟨1⟩ .minusOne, fails ⟨0⟩ 1,
    (call_of_refusal provides isOn).2.2 1 (by decide) rfl⟩

end Calls

end ScriptHost.Library.Files
