import Mathlib.Logic.Function.Basic
import ScriptHost.Value.Container

/-!
Programs that make containers and work on them. A program keeps values in slots, and finds every
container in a slot, however it got there: several slots may have copies of one value, and what is
taken out of a container or a tuple goes into a slot too. The same program can run on the store and
on any other implementation of the operations.
-/

namespace ScriptHost.Program

/-- The operations of programs, with arrays, structs and values given as `A`, `S` and `V`. -/
inductive Operation (A S V : Type)
  | text (content : String)
  | tuple (first second : V)
  | first (tuple : V)
  | second (tuple : V)
  | array (items : List V)
  | bytes (content : List UInt8)
  | copy (array : A)
  | push (array : A) (item : V)
  | pop (array : A)
  | get (array : A) (index : Nat)
  | set (array : A) (index : Nat) (item : V)
  | length (array : A)
  | isEmpty (array : A)
  | struct (fields : List (String × V))
  | setField (struct : S) (name : String) (value : V)
  | removeField (struct : S) (name : String)
  | getField (struct : S) (name : String)
  | hasField (struct : S) (name : String)
  | fieldCount (struct : S)

/-- An operation on what slots have. -/
abbrev Request := Operation Nat Nat Nat

/-- An operation on given objects. -/
abbrev Effect := Operation ArrayRef StructRef Value

/-- What the program is told. A request is refused if a slot does not have the array or the struct
that is needed. -/
inductive Answer
  | done
  | found (result : Option Value)
  | count (n : Nat)
  | truth (b : Bool)
  | refused

/-- A request and the slot for its result. -/
structure Instruction where
  request : Request
  into : Nat

structure State (σ : Type) where
  store : σ
  slots : Nat → Value

def State.map {σ τ : Type} (f : σ → τ) (m : State σ) : State τ :=
  ⟨f m.store, m.slots⟩

/-! ### Runs -/

/-- The request with what the slots have, unless it is to be refused. -/
def resolve (slots : Nat → Value) : Request → Option Effect
  | .text content => some (.text content)
  | .tuple first second => some (.tuple (slots first) (slots second))
  | .first tuple => some (.first (slots tuple))
  | .second tuple => some (.second (slots tuple))
  | .array items => some (.array (items.map slots))
  | .bytes content => some (.bytes content)
  | .copy array => (slots array).array?.map .copy
  | .push array item => (slots array).array?.map (.push · (slots item))
  | .pop array => (slots array).array?.map .pop
  | .get array index => (slots array).array?.map (.get · index)
  | .set array index item => (slots array).array?.map (.set · index (slots item))
  | .length array => (slots array).array?.map .length
  | .isEmpty array => (slots array).array?.map .isEmpty
  | .struct fields => some (.struct (fields.map fun field => (field.1, slots field.2)))
  | .setField struct name value => (slots struct).struct?.map (.setField · name (slots value))
  | .removeField struct name => (slots struct).struct?.map (.removeField · name)
  | .getField struct name => (slots struct).struct?.map (.getField · name)
  | .hasField struct name => (slots struct).struct?.map (.hasField · name)
  | .fieldCount struct => (slots struct).struct?.map .fieldCount

/-- The slots once the result is in its slot; without a result they stay as they are. -/
def keep (slots : Nat → Value) (into : Nat) : Answer → Nat → Value
  | .found (some v) => Function.update slots into v
  | _ => slots

section Runs

variable {σ τ : Type} (perform : σ → Effect → Answer × σ)

def step (m : State σ) (i : Instruction) : Answer × State σ :=
  match resolve m.slots i.request with
  | none => (.refused, m)
  | some effect =>
    let result := perform m.store effect
    (result.1, ⟨result.2, keep m.slots i.into result.1⟩)

/-- The answers to a program, and the state after it. -/
def run (m : State σ) : List Instruction → List Answer × State σ
  | [] => ([], m)
  | i :: rest =>
    let result := step perform m i
    let later := run result.2 rest
    (result.1 :: later.1, later.2)

/-- The operations that a program carries out, in their order. -/
def effects (m : State σ) : List Instruction → List Effect
  | [] => []
  | i :: rest => (resolve m.slots i.request).toList ++ effects (step perform m i).2 rest

variable {perform}

theorem step_of_resolve {m : State σ} {i : Instruction} {effect : Effect}
    (found : resolve m.slots i.request = some effect) :
    step perform m i = ((perform m.store effect).1,
      ⟨(perform m.store effect).2, keep m.slots i.into (perform m.store effect).1⟩) := by
  rw [step, found]

theorem step_of_refused {m : State σ} {i : Instruction}
    (refused : resolve m.slots i.request = none) : step perform m i = (.refused, m) := by
  rw [step, refused]

/-- What every step keeps is kept by whole programs. -/
theorem run_induction {Keeps : State σ → Prop}
    (kept : ∀ m i, Keeps m → Keeps (step perform m i).2) (program : List Instruction)
    {m : State σ} (start : Keeps m) : Keeps (run perform m program).2 := by
  induction program generalizing m with
  | nil => exact start
  | cons i rest ih => exact ih (kept m i start)

/-- Two implementations give the same answers to a program if they do so for each operation, and
if what corresponds to a store goes over into what corresponds to the store after the operation. -/
theorem run_map {other : τ → Effect → Answer × τ} {f : σ → τ} {Keeps : State σ → Prop}
    (kept : ∀ m i, Keeps m → Keeps (step perform m i).2)
    (agrees : ∀ m request effect, Keeps m → resolve m.slots request = some effect →
      other (f m.store) effect = (perform m.store effect).map id f)
    (program : List Instruction) {m : State σ} (start : Keeps m) :
    run other (m.map f) program = (run perform m program).map id (State.map f) := by
  induction program generalizing m with
  | nil => rfl
  | cons i rest ih =>
    have one : step other (m.map f) i = (step perform m i).map id (State.map f) := by
      cases found : resolve m.slots i.request with
      | none => rw [step_of_refused found, step_of_refused (m := m.map f) found]; rfl
      | some effect =>
        have same : other (m.map f).store effect = _ := agrees m _ effect start found
        rw [step_of_resolve found, step_of_resolve (m := m.map f) found, same]
        rfl
    have later := ih (kept m i start)
    rw [run, one, run]
    dsimp only [Prod.map]
    rw [later]
    rfl

/-! ### Changes of containers -/

/-- The container that an operation changes. -/
def target? : Effect → Option Container
  | .push array _ | .pop array | .set array _ _ => some (.array array)
  | .setField struct _ _ | .removeField struct _ => some (.struct struct)
  | _ => none

/-- If an operation changes what is seen of a container only where the container is its target, then
a program does to the container what its operations on it do one after the other. -/
theorem look_run {α : Type} (look : σ → α) (edit : Effect → α → α) {c : Container}
    (Keeps : State σ → Prop) (kept : ∀ m i, Keeps m → Keeps (step perform m i).2)
    (changes : ∀ m request effect, Keeps m → resolve m.slots request = some effect →
      look (perform m.store effect).2 =
        if target? effect = some c then edit effect (look m.store) else look m.store)
    (program : List Instruction) {m : State σ} (start : Keeps m) :
    look (run perform m program).2.store =
      ((effects perform m program).filter (target? · = some c)).foldl
        (fun contents effect => edit effect contents) (look m.store) := by
  induction program generalizing m with
  | nil => rfl
  | cons i rest ih =>
    have later := ih (kept m i start)
    rw [effects, List.filter_append, List.foldl_append]
    refine later.trans ?_
    cases found : resolve m.slots i.request with
    | none =>
      rw [step_of_refused found]
      rfl
    | some effect =>
      rw [step_of_resolve found]
      dsimp only
      rw [changes m _ effect start found]
      by_cases met : target? effect = some c
      · simp [met]
      · simp [met]

end Runs

end ScriptHost.Program
