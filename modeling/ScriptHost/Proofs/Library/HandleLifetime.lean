import ScriptHost.Proofs.Library.FileErrors
import ScriptHost.Proofs.Library.HandleSteps

/-!
The life of a file handle. It is open from the call that makes it to the first one that closes it,
through whichever copy of the value, and closed ever after; what is done to other handles, to the
file system and to the objects that hold copies of it does not matter.
-/

namespace ScriptHost

/-- The making and changing of objects, by which values are stored, copied and dropped. -/
inductive Copying
  | newString (text : String)
  | newTuple (first second : Value)
  | newArray (items : List Value)
  | newStruct (fields : NameMap Value)
  | copyArray (ref : ArrayRef)
  | push (ref : ArrayRef) (v : Value)
  | pop (ref : ArrayRef)
  | setItem (ref : ArrayRef) (index : Nat) (v : Value)
  | setField (ref : StructRef) (name : String) (v : Value)
  | removeField (ref : StructRef) (name : String)

namespace Copying

def run (s : Store) : Copying → Store
  | newString text => (s.newString text).2
  | newTuple first second => (s.newTuple first second).2
  | newArray items => (s.newArray items).2
  | newStruct fields => (s.newStruct fields).2
  | copyArray ref => (s.copyArray ref).2
  | push ref v => s.push ref v
  | pop ref => (s.pop ref).2
  | setItem ref index v => (s.setItem ref index v).2
  | setField ref name v => (s.setField ref name v).2
  | removeField ref name => (s.removeField ref name).2

theorem handles_run (copying : Copying) (s : Store) : (copying.run s).handles = s.handles := by
  cases copying <;> rfl

end Copying

/-- What can happen to handles: calls of library functions with any arguments, and what a host does
on its own, which is to close a handle, to make one on any path with or without a stream, and to
copy values. -/
inductive Action
  | call (f : Registration) (provided : f ∈ Library.standard) (args : List Value)
  | close (ref : HandleRef)
  | newHandle (handle : Handle)
  | copy (copying : Copying)

namespace Action

variable {r : Registry} {ref : HandleRef} {w : World}

def perform (r : Registry) (w : World) : Action → World
  | call f _ args => ((r.call f.descriptor.space f.descriptor.name args).run w).2
  | close ref => { w with store := (w.store.close ref).2 }
  | newHandle handle => { w with store := (w.store.newHandle handle).2 }
  | copy copying => { w with store := copying.run w.store }

def performAll (r : Registry) (w : World) (actions : List Action) : World :=
  actions.foldl (perform r) w

/-- The handles that an action is to close. -/
def closes : Action → Set HandleRef
  | call f _ args => Library.closedBy f args
  | close ref => {ref}
  | newHandle _ => ∅
  | copy _ => ∅

theorem continues_perform (provides : ∀ f ∈ Library.standard, f ∈ r.entries) (action : Action)
    (w : World) : w.store.Continues action.closes (action.perform r w).store := by
  cases action with
  | call f provided args =>
    rw [perform, Registry.call_of_mem (provides f provided)]
    exact Library.closesOnly provided r args w
  | close ref => exact .setStream_none w.store ref
  | newHandle handle => exact .newHandle w.store handle
  | copy copying => exact .of_handles_eq (copying.handles_run w.store)

theorem continues_performAll (provides : ∀ f ∈ Library.standard, f ∈ r.entries)
    (actions : List Action) (w : World) :
    w.store.Continues { ref | ∃ action ∈ actions, ref ∈ action.closes }
      (performAll r w actions).store := by
  induction actions generalizing w with
  | nil =>
    have nothing : { ref | ∃ action ∈ ([] : List Action), ref ∈ action.closes } = ∅ :=
      Set.eq_empty_of_forall_notMem fun _ ⟨_, member, _⟩ => List.not_mem_nil member
    rw [nothing]
    exact .refl _
  | cons action rest ih =>
    have both := (continues_perform provides action w).trans (ih (action.perform r w))
    have split : { ref | ∃ any ∈ action :: rest, ref ∈ any.closes } =
        action.closes ∪ { ref | ∃ any ∈ rest, ref ∈ any.closes } :=
      Set.ext fun _ => List.exists_mem_cons_iff _ _ _
    rw [split]
    exact both

end Action

namespace Library

open Files

variable {r : Registry} {ref : HandleRef} {w later : World} {args : List Value} {name : String}

theorem call_at (provides : ∀ f ∈ standard, f ∈ r.entries) (index : Nat) {f : Registration}
    (here : registrations[index]? = some f) (args : List Value) :
    r.call space f.descriptor.name args = r.callEntry f args := by
  have member : f ∈ registrations := List.mem_of_getElem? here
  exact call_of_mem member (provides f (List.mem_append_right _ member))

/-! ### Opening -/

/-- A handle right after it was made on a path: it is open, and was not there before. -/
structure Opened (s t : Store) (ref : HandleRef) (path : String) : Prop where
  fresh : ¬s.HoldsHandle ref
  isOpen : (t.handle ref).isOpen
  path_eq : (t.handle ref).path = path

theorem opened_newHandle (s : Store) (path : String) (stream : Stream) :
    Opened s (s.newHandle { path, stream := some stream }).2
      (s.newHandle { path, stream := some stream }).1 path := by
  have new := Store.handle_newHandle s { path, stream := some stream }
    (s.newHandle { path, stream := some stream }).1
  rw [if_pos rfl] at new
  exact ⟨Store.not_holdsHandle_newHandle _, by rw [new]; rfl, by rw [new]⟩

theorem opened_of_handleOn {path : String} {step : FileTree → Option Stream × FileTree}
    {explain : Abort → Abort}
    (run : (((Host.changeFiles step >>= handleOn path) >>= Host.give).mapAbort explain).run w =
      (.ok (.filehandle ref), later)) : Opened w.store later.store ref path := by
  rw [Host.run_mapAbort, Host.run_bind, Host.run_bind, Host.run_changeFiles] at run
  generalize step w.files = result at run
  obtain ⟨stream?, files⟩ := result
  cases stream? with
  | none =>
    -- The call gives void then, and not a handle.
    cases run
  | some stream =>
    cases run
    exact opened_newHandle w.store path stream

theorem opened_of_callEntry {d : Descriptor} {ts : List ParamType}
    {body : Signature (Host (Option HandleRef)) (.string :: ts)}
    (opens : ∀ (path : String) (others : Arguments ts), ∃ step,
      Signature.apply (body path) others = Host.changeFiles step >>= handleOn path)
    (run : (r.callEntry ⟨d, .ofBody (.string :: ts) body⟩ args).run w =
      (.ok (.filehandle ref), later)) :
    ∃ stamp path rest, args = .string stamp path :: rest ∧
      Opened w.store later.store ref path := by
  obtain ⟨e, refused⟩ | ⟨⟨path, others⟩, carried, runs⟩ :=
    Registry.callEntry_ofBody_cases r d (.string :: ts) body args
  · cases (refused w).symm.trans run
  · obtain ⟨_, rest, rfl, ⟨stamp, rfl⟩, _⟩ := carried.exists_cons
    obtain ⟨step, opening⟩ := opens path others
    rw [runs, Signature.apply, opening] at run
    exact ⟨stamp, path, rest, rfl, opened_of_handleOn run⟩

theorem opened_of_call (provides : ∀ f ∈ standard, f ∈ r.entries)
    (opener : name = "fOpen" ∨ name = "fCreate")
    (run : (r.call space name args).run w = (.ok (.filehandle ref), later)) :
    ∃ stamp path rest, args = .string stamp path :: rest ∧
      Opened w.store later.store ref path := by
  rcases opener with rfl | rfl
  · have found : r.call space "fOpen" args = r.callEntry ⟨descriptor "fOpen" ["path", "mode"],
        .ofBody [.string, .string] openFile⟩ args := call_at provides 5 rfl args
    exact opened_of_callEntry (fun path others => ⟨_, rfl⟩) (found ▸ run)
  · have found : r.call space "fCreate" args = r.callEntry ⟨descriptor "fCreate" ["path"],
        .ofBody [.string] createFile⟩ args := call_at provides 7 rfl args
    exact opened_of_callEntry (fun path others => ⟨_, rfl⟩) (found ▸ run)

/-! ### Calls on a handle -/

section Calls

variable (provides : ∀ f ∈ standard, f ∈ r.entries) (ref : HandleRef) (w : World)
include provides

theorem call_on_handle {ρ : Type} [ToValue ρ] {labels : List String} {body : HandleRef → Host ρ}
    (index : Nat)
    (here : registrations[index]? = some ⟨descriptor name labels, .ofBody [.filehandle] body⟩) :
    r.call space name [.filehandle ref] =
      (body ref >>= Host.give).mapAbort (r.explain (descriptor name labels)) := by
  have carried : Arguments.Carried [.filehandle] [.filehandle ref] (ref, ()) := ⟨rfl, rfl⟩
  exact (call_at provides index here _).trans (Registry.callEntry_ofBody_of_carried carried)

theorem run_checkHandle :
    (r.call space "fCheckHandle" [.filehandle ref]).run w =
      (.ok (.ofBool (w.store.handle ref).isOpen), w) := by
  rw [call_on_handle provides ref 4 rfl]
  rfl

theorem run_closeHandle :
    (r.call space "fClose" [.filehandle ref]).run w =
      (.ok .void, { w with store := w.store.setStream ref none }) := by
  rw [call_on_handle provides ref 9 rfl]
  rfl

/-- Once a handle is closed, closing it does nothing. -/
theorem run_closeHandle_of_closed (closed : ¬(w.store.handle ref).isOpen) :
    (r.call space "fClose" [.filehandle ref]).run w = (.ok .void, w) := by
  rw [run_closeHandle provides, Store.setStream_none_of_closed closed]

theorem run_of_documentedError (index : Nat) {f : Registration}
    (here : registrations[index]? = some f)
    (takes : List.Forall₂ ParamType.Takes f.function.params args) {e : EvalError}
    (due : documentedError w.store f.descriptor.name args = some e) :
    (r.call space f.descriptor.name args).run w =
      (.error (.error (e.withNote ("in call to fileio." ++ f.descriptor.name))), w) := by
  have member : f ∈ registrations := List.mem_of_getElem? here
  have fails := failsAsDocumented member args w takes
  rw [due] at fails
  have count : args.length = f.function.arity :=
    takes.length_eq.symm.trans f.function.length_params
  rw [call_at provides index here, Registry.callEntry_of_count count]
  refine fails.mapAbort (g := (·.withNote ("in call to fileio." ++ f.descriptor.name)))
    fun e => ?_
  rw [Registry.explain, Descriptor.qualifiedName, space_of_mem member]
  rfl

end Calls

/-! ### Streams of closed handles -/

/-- The uses of the stream of a handle that are not refused for another reason. -/
inductive StreamUse (s : Store) (ref : HandleRef) : String → List Value → Prop
  | readLine : StreamUse s ref "fReadLine" [.filehandle ref]
  | length : StreamUse s ref "fLen" [.filehandle ref]
  | getPosition : StreamUse s ref "fGetPos" [.filehandle ref]
  | setPosition {position : Integer} (valid : 0 ≤ position.val) :
    StreamUse s ref "fSetPos" [.filehandle ref, .integer position]
  | readBytes (count : Integer) : StreamUse s ref "fRead" [.filehandle ref, .integer count]
  | writeBytes {data : ArrayRef} (bytes : ∀ item ∈ s.items data, item.tag = .byte) :
    StreamUse s ref "fWrite" [.filehandle ref, .array data]
  | writeLine (lineStamp stamp : Stamp) (line : String) {encoding : String}
    (known : encoding ∈ ["ascii", "unicode", "utf8"]) :
    StreamUse s ref "fWriteLine"
      [.filehandle ref, .string lineStamp line, .string stamp encoding]

theorem noByteError_of_bytes {items : List Value} (bytes : ∀ item ∈ items, item.tag = .byte)
    (first : Nat) : noByteError first items = none := by
  induction items generalizing first with
  | nil => rfl
  | cons item rest ih =>
    obtain ⟨head, tail⟩ := List.forall_mem_cons.1 bytes
    rw [noByteError_cons, if_pos head]
    exact ih tail (first + 1)

namespace StreamUse

variable {s : Store}

theorem documentedError_eq (use : StreamUse s ref name args) :
    documentedError s name args = closedError s name ref := by
  cases use with
  | readLine => rfl
  | length => rfl
  | getPosition => rfl
  | setPosition valid => exact if_neg (not_lt.2 valid)
  | readBytes count => rfl
  | writeBytes bytes => rw [documentedError, noByteError_of_bytes bytes, Option.none_or]
  | writeLine lineStamp stamp line known => exact if_pos known

theorem exists_registration (use : StreamUse s ref name args) :
    ∃ (index : Nat) (f : Registration), registrations[index]? = some f ∧
      f.descriptor.name = name ∧ List.Forall₂ ParamType.Takes f.function.params args := by
  cases use with
  | readLine => exact ⟨10, _, rfl, rfl, .cons (.inr rfl) .nil⟩
  | length => exact ⟨11, _, rfl, rfl, .cons (.inr rfl) .nil⟩
  | getPosition => exact ⟨12, _, rfl, rfl, .cons (.inr rfl) .nil⟩
  | setPosition valid => exact ⟨13, _, rfl, rfl, .cons (.inr rfl) (.cons (.inr rfl) .nil)⟩
  | readBytes count => exact ⟨14, _, rfl, rfl, .cons (.inr rfl) (.cons (.inr rfl) .nil)⟩
  | writeBytes bytes => exact ⟨15, _, rfl, rfl, .cons (.inr rfl) (.cons (.inr rfl) .nil)⟩
  | writeLine lineStamp stamp line known =>
    exact ⟨16, _, rfl, rfl, .cons (.inr rfl) (.cons (.inr rfl) (.cons (.inr rfl) .nil))⟩

theorem run_of_closed (provides : ∀ f ∈ standard, f ∈ r.entries)
    (use : StreamUse w.store ref name args) (closed : ¬(w.store.handle ref).isOpen) :
    (r.call space name args).run w =
      (.error (.error
        { cause := .invalidHandle name, notes := ["in call to fileio." ++ name] }), w) := by
  have due := use.documentedError_eq
  rw [closedError, if_neg closed] at due
  obtain ⟨index, f, here, rfl, takes⟩ := use.exists_registration
  exact run_of_documentedError provides w index here takes due

end StreamUse

/-! ### The life of a handle -/

/-- What scripts see of a handle that is closed: it is told to be so, its stream cannot be used, and
it can be closed again. None of this changes anything. -/
structure SeenClosed (r : Registry) (ref : HandleRef) (w : World) : Prop where
  check : (r.call "fileio" "fCheckHandle" [.filehandle ref]).run w = (.ok (.integer 0), w)
  use : ∀ name args, StreamUse w.store ref name args →
    (r.call "fileio" name args).run w =
      (.error (.error
        { cause := .invalidHandle name, notes := ["in call to fileio." ++ name] }), w)
  close : (r.call "fileio" "fClose" [.filehandle ref]).run w = (.ok .void, w)

theorem seenClosed_of_closed (provides : ∀ f ∈ standard, f ∈ r.entries)
    (closed : ¬(w.store.handle ref).isOpen) : SeenClosed r ref w where
  check := by
    have checked := run_checkHandle provides ref w
    rwa [eq_false_of_ne_true closed] at checked
  use _ _ use := use.run_of_closed provides closed
  close := run_closeHandle_of_closed provides ref w closed

/-- A handle is closed by taking its stream away, and nothing else is done. -/
theorem perform_of_mem_closes (provides : ∀ f ∈ standard, f ∈ r.entries) {action : Action}
    (closing : ref ∈ action.closes) (w : World) :
    action.perform r w = { w with store := w.store.setStream ref none } := by
  cases action with
  | call f provided args =>
    obtain ⟨key, rfl⟩ := closing
    obtain ⟨sameSpace, sameName⟩ := Prod.mk.inj key
    rw [Action.perform, sameSpace, sameName]
    exact congrArg Prod.snd (run_closeHandle provides ref w)
  | close other =>
    obtain rfl := Set.mem_singleton_iff.1 closing
    rfl
  | newHandle handle => exact closing.elim
  | copy copying => exact closing.elim

theorem equal_filehandle_iff (s : Store) (ref : HandleRef) (v : Value) :
    s.equal (.filehandle ref) v ↔ v = .filehandle ref := by
  cases v <;> simp [Store.equal, Value.equalWith, eq_comm]

theorem equal_filehandle_of_ne {other : HandleRef} (differ : other ≠ ref) (s : Store) :
    s.equal (.filehandle ref) (.filehandle other) = false := by
  refine Bool.eq_false_iff.2 fun same => differ ?_
  exact Value.filehandle.inj ((equal_filehandle_iff s ref _).1 same)

/-- The life of a handle that `fOpen` or `fCreate` has given, as it shows after any actions. Until
the first one that closes the handle it is open; from then on it is seen closed, whatever was done
since. Its path is the one it was opened with. It is equal to its copies and to nothing else, not to
a handle that was there before nor to one that is opened later, and closing it leaves every other
handle as it is. -/
theorem handle_lifetime {r : Registry} (provides : ∀ f ∈ standard, f ∈ r.entries) {name : String}
    (opener : name = "fOpen" ∨ name = "fCreate") {args : List Value} {w start now : World}
    {ref : HandleRef} (opened : (r.call "fileio" name args).run w = (.ok (.filehandle ref), start))
    {actions : List Action} (reached : Action.performAll r start actions = now) :
    ((∀ action ∈ actions, ref ∉ action.closes) →
      (r.call "fileio" "fCheckHandle" [.filehandle ref]).run now = (.ok (.integer 1), now)) ∧
    ((∃ action ∈ actions, ref ∈ action.closes) → SeenClosed r ref now) ∧
    (∃ stamp path rest, args = .string stamp path :: rest ∧
      (now.store.handle ref).path = path) ∧
    (∀ v, now.store.equal (.filehandle ref) v ↔ v = .filehandle ref) ∧
    (∀ other, w.store.HoldsHandle other →
      now.store.equal (.filehandle ref) (.filehandle other) = false) ∧
    (∀ laterName laterArgs other next, laterName = "fOpen" ∨ laterName = "fCreate" →
      (r.call "fileio" laterName laterArgs).run now = (.ok (.filehandle other), next) →
      ∀ more, (Action.performAll r next more).store.equal (.filehandle ref)
        (.filehandle other) = false) ∧
    ∀ action : Action, ref ∈ action.closes → ∀ other, other ≠ ref →
      (action.perform r now).store.handle other = now.store.handle other := by
  obtain ⟨stamp, path, rest, rfl, new⟩ := opened_of_call provides opener opened
  have held : start.store.HoldsHandle ref := Store.holdsHandle_of_isOpen new.isOpen
  have run := Action.continues_performAll provides actions start
  rw [reached] at run
  -- Open at the start, it is open now if and only if it was closed nowhere in between.
  have isOpen_iff : (now.store.handle ref).isOpen ↔ ¬∃ action ∈ actions, ref ∈ action.closes :=
    (run.isOpen_iff ref held).trans (and_iff_right new.isOpen)
  refine ⟨fun untouched => ?untouched, fun closed => ?closed, ⟨stamp, path, rest, rfl, ?path⟩,
    equal_filehandle_iff now.store ref, fun other older => ?older,
    fun laterName laterArgs other next opener opened more => ?later,
    fun action closing other differ => ?others⟩
  case untouched =>
    have isOpen := isOpen_iff.2 fun ⟨action, member, closing⟩ => untouched action member closing
    have checked := run_checkHandle provides ref now
    rwa [isOpen] at checked
  case closed => exact seenClosed_of_closed provides fun isOpen => isOpen_iff.1 isOpen closed
  case path => exact (run.path_eq ref held).trans new.path_eq
  case older =>
    have differ : other ≠ ref := fun same => new.fresh (same ▸ older)
    exact equal_filehandle_of_ne differ now.store
  case later =>
    obtain ⟨_, _, _, _, newer⟩ := opened_of_call provides opener opened
    have differ : other ≠ ref := fun same => newer.fresh (same ▸ run.held ref held)
    exact equal_filehandle_of_ne differ _
  case others =>
    rw [perform_of_mem_closes provides closing]
    exact Store.handle_setStream_of_ne differ.symm none

/-- A handle that is put into an array and then closed. -/
theorem handle_lifetime_created :
    ∃ start,
      (standardRegistry.call "fileio" "fCreate" [.string ⟨0⟩ "f"]).run
          { store := {}, files := FileTree.bare } = (.ok (.filehandle ⟨0⟩), start) ∧
      SeenClosed standardRegistry ⟨0⟩ (Action.performAll standardRegistry start
        [.copy (.newArray [.filehandle ⟨0⟩]),
          .call standard[14] (List.getElem_mem _) [.filehandle ⟨0⟩]]) := by
  have provides : ∀ f ∈ standard, f ∈ standardRegistry.entries := by
    rw [entries_standardRegistry]
    exact fun _ member => member
  have found : standardRegistry.call "fileio" "fCreate" [.string ⟨0⟩ "f"] =
      standardRegistry.callEntry ⟨descriptor "fCreate" ["path"], .ofBody [.string] createFile⟩
        [.string ⟨0⟩ "f"] := call_at provides 7 rfl _
  obtain ⟨start, created⟩ : ∃ start, (standardRegistry.call "fileio" "fCreate"
      [.string ⟨0⟩ "f"]).run { store := {}, files := FileTree.bare } =
        (.ok (.filehandle ⟨0⟩), start) := by
    rw [found]
    exact ⟨_, rfl⟩
  refine ⟨start, created, (handle_lifetime provides (.inr rfl) created rfl).2.1 ?_⟩
  exact ⟨_, List.mem_cons_of_mem _ List.mem_cons_self, rfl, rfl⟩

end Library

end ScriptHost
