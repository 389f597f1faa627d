import ScriptHost.Proofs.Store.Refinement

/-!
Programs on the store. A program never comes to a reference that the store did not give out, so that
the ideal store answers it in the same way, however the references to a container are passed
around. A container is changed by the operations on it alone.
-/

namespace ScriptHost.Program

open Store

/-- A program can be run: what its slots and the containers refer to is held. -/
structure Sound (m : State Store) : Prop where
  contained : m.store.SelfContained
  slots : ∀ n, m.store.Knows (m.slots n)

variable {m : State Store}

theorem Sound.holds_array (sound : Sound m) {n : Nat} {ref : ArrayRef}
    (found : (m.slots n).array? = some ref) : m.store.Holds (.array ref) := by
  have known := sound.slots n
  cases value : m.slots n with
  | array other =>
    rw [value] at found known
    exact Option.some.inj found ▸ known
  | _ => rw [value] at found; cases found

theorem Sound.holds_struct (sound : Sound m) {n : Nat} {ref : StructRef}
    (found : (m.slots n).struct? = some ref) : m.store.Holds (.struct ref) := by
  have known := sound.slots n
  cases value : m.slots n with
  | struct other =>
    rw [value] at found known
    exact Option.some.inj found ▸ known
  | _ => rw [value] at found; cases found

/-- What a request comes to is known, because the slots are. -/
theorem Sound.knowsAll (sound : Sound m) {request : Request} {effect : Effect}
    (found : resolve m.slots request = some effect) : m.store.KnowsAll effect := by
  have slots := sound.slots
  cases request with
  | text _ | bytes _ =>
    obtain rfl := Option.some.inj found
    trivial
  | tuple first second =>
    obtain rfl := Option.some.inj found
    exact ⟨slots first, slots second⟩
  | first tuple | second tuple =>
    obtain rfl := Option.some.inj found
    exact slots tuple
  | array items =>
    obtain rfl := Option.some.inj found
    intro v member
    obtain ⟨n, _, rfl⟩ := List.mem_map.1 member
    exact slots n
  | struct fields =>
    obtain rfl := Option.some.inj found
    intro field member
    obtain ⟨given, _, rfl⟩ := List.mem_map.1 member
    exact slots given.2
  | copy array | pop array | get array _ | length array | isEmpty array =>
    obtain ⟨ref, holds, rfl⟩ := Option.map_eq_some_iff.1 found
    exact sound.holds_array holds
  | push array item | set array _ item =>
    obtain ⟨ref, holds, rfl⟩ := Option.map_eq_some_iff.1 found
    exact ⟨sound.holds_array holds, slots item⟩
  | removeField struct _ | getField struct _ | hasField struct _ | fieldCount struct =>
    obtain ⟨ref, holds, rfl⟩ := Option.map_eq_some_iff.1 found
    exact sound.holds_struct holds
  | setField struct _ value =>
    obtain ⟨ref, holds, rfl⟩ := Option.map_eq_some_iff.1 found
    exact ⟨sound.holds_struct holds, slots value⟩

theorem knows_keep {s : Store} {slots : Nat → Value} (known : ∀ n, s.Knows (slots n))
    {answer : Answer} (answered : ∀ v, answer = .found (some v) → s.Knows v) (into n : Nat) :
    s.Knows (keep slots into answer n) := by
  unfold keep
  split
  next v =>
    by_cases same : n = into
    · subst same
      rw [Function.update_self]
      exact answered v rfl
    · rw [Function.update_of_ne same]
      exact known n
  next => exact known n

theorem Sound.step (sound : Sound m) (i : Instruction) : Sound (step perform m i).2 := by
  cases found : resolve m.slots i.request with
  | none => rwa [step_of_refused found]
  | some effect =>
    rw [step_of_resolve found]
    obtain ⟨longer, contained, answer⟩ := perform_leaves sound.contained (sound.knowsAll found)
    exact ⟨contained, knows_keep (fun n => longer.knows (sound.slots n)) answer i.into⟩

theorem Sound.run (sound : Sound m) (program : List Instruction) :
    Sound (run perform m program).2 :=
  run_induction (fun _ i sound => sound.step i) program sound

theorem Sound.holds_step (sound : Sound m) (i : Instruction) {c : Container}
    (held : m.store.Holds c) : (Program.step perform m i).2.store.Holds c := by
  cases found : resolve m.slots i.request with
  | none => rwa [step_of_refused found]
  | some effect =>
    rw [step_of_resolve found]
    have longer := (perform_leaves sound.contained (sound.knowsAll found)).longer
    cases c with
    | array ref => exact Nat.lt_of_lt_of_le held longer.arrays
    | struct ref => exact Nat.lt_of_lt_of_le held longer.structs

theorem Sound.holds_run (sound : Sound m) (program : List Instruction) {c : Container}
    (held : m.store.Holds c) : (Program.run perform m program).2.store.Holds c := by
  induction program generalizing m with
  | nil => exact held
  | cons i rest ih => exact ih (sound.step i) (sound.holds_step i held)

/-- The answers to a program are those of the ideal store, and the contents after it too. -/
theorem Sound.run_ideal (sound : Sound m) (program : List Instruction) :
    Program.run Ideal.perform (m.map ideal) program =
      (Program.run perform m program).map id (State.map ideal) :=
  run_map (fun _ i sound => sound.step i)
    (fun _ _ _ sound found => perform_refines (sound.knowsAll found)) program sound

theorem items_perform {s : Store} {effect : Effect} (known : s.KnowsAll effect) {ref : ArrayRef}
    (held : s.Holds (.array ref)) :
    (s.perform effect).2.items ref =
      if target? effect = some (.array ref) then editItems effect (s.items ref)
      else s.items ref := by
  have same := congrArg (·.2.lists ref) (perform_refines known)
  exact same.symm.trans (Ideal.lists_perform s.ideal effect held)

theorem fields_perform {s : Store} {effect : Effect} (known : s.KnowsAll effect) {ref : StructRef}
    (held : s.Holds (.struct ref)) :
    (s.perform effect).2.ideal.maps ref =
      if target? effect = some (.struct ref) then editFields effect (s.ideal.maps ref)
      else s.ideal.maps ref := by
  have same := congrArg (·.2.maps ref) (perform_refines known)
  exact same.symm.trans (Ideal.maps_perform s.ideal effect held)

/-- What the operations on one array among the given ones make of its items, one after the other. -/
def editedItems (ref : ArrayRef) (effects : List Effect) (items : List Value) : List Value :=
  (effects.filter (target? · = some (.array ref))).foldl
    (fun items effect => editItems effect items) items

def editedFields (ref : StructRef) (effects : List Effect) (fields : Fields) : Fields :=
  (effects.filter (target? · = some (.struct ref))).foldl
    (fun fields effect => editFields effect fields) fields

/-- A program changes an array by its operations on this array alone. -/
theorem Sound.items_run (sound : Sound m) (program : List Instruction) {ref : ArrayRef}
    (held : m.store.Holds (.array ref)) :
    (Program.run perform m program).2.store.items ref =
      editedItems ref (effects perform m program) (m.store.items ref) :=
  look_run (fun s => s.items ref) editItems (fun m => Sound m ∧ m.store.Holds (.array ref))
    (fun _ i both => ⟨both.1.step i, both.1.holds_step i both.2⟩)
    (fun _ _ _ both found => items_perform (both.1.knowsAll found) both.2) program ⟨sound, held⟩

/-- A program changes a struct by its operations on this struct alone. -/
theorem Sound.fields_run (sound : Sound m) (program : List Instruction) {ref : StructRef}
    (held : m.store.Holds (.struct ref)) :
    (Program.run perform m program).2.store.ideal.maps ref =
      editedFields ref (effects perform m program) (m.store.ideal.maps ref) :=
  look_run (fun s => s.ideal.maps ref) editFields
    (fun m => Sound m ∧ m.store.Holds (.struct ref))
    (fun _ i both => ⟨both.1.step i, both.1.holds_step i both.2⟩)
    (fun _ _ _ both found => fields_perform (both.1.knowsAll found) both.2) program ⟨sound, held⟩

/-- A program gets the answers of the ideal store, in which every container is a list or a finite
map of its own, and it leaves the contents of the ideal store behind. From then on, whatever it does
changes a container by the operations on this container alone, through whatever slots they find
it; operations that find nothing change nothing, and a copy is a new array with the same items. -/
theorem run_refines_ideal {m : State Store} (sound : Sound m) (program : List Instruction) :
    Program.run Ideal.perform (m.map ideal) program =
      (Program.run perform m program).map id (State.map ideal) ∧
    let now := (Program.run perform m program).2
    (∀ later ref, now.store.Holds (.array ref) →
      (Program.run perform now later).2.store.items ref =
        editedItems ref (effects perform now later) (now.store.items ref)) ∧
    (∀ later ref, now.store.Holds (.struct ref) →
      (Program.run perform now later).2.store.ideal.maps ref =
        editedFields ref (effects perform now later) (now.store.ideal.maps ref)) ∧
    (∀ ref index item, (now.store.items ref).length ≤ index →
      now.store.perform (.set ref index item) = (.found none, now.store)) ∧
    (∀ ref, now.store.items ref = [] →
      now.store.perform (.pop ref) = (.found none, now.store)) ∧
    (∀ ref name, (now.store.fields ref).get? name = none →
      now.store.perform (.removeField ref name) = (.found none, now.store)) ∧
    ∀ ref, ∃ copy later, now.store.perform (.copy ref) = (.found (some (.array copy)), later) ∧
      ¬now.store.Holds (.array copy) ∧ later.Holds (.array copy) ∧
        later.items copy = now.store.items ref := by
  have after := sound.run program
  exact ⟨sound.run_ideal program, fun later _ => after.items_run later,
    fun later _ => after.fields_run later,
    fun _ _ item outside => perform_set_outside _ outside item,
    fun _ => perform_pop_empty _, fun _ _ => perform_removeField_absent _, perform_copy _⟩

theorem sound_start : Sound ⟨{}, fun _ => .void⟩ where
  contained := ⟨fun _ _ member => absurd member List.not_mem_nil, fun _ _ _ bound => nomatch bound⟩
  slots _ := trivial

/-- An array that holds itself, and a copy of it: the item is shared, the rest is not. -/
theorem run_refines_ideal_selfContaining :
    let start : State Store := ⟨{}, fun _ => .void⟩
    let program : List Instruction := [⟨.array [], 0⟩, ⟨.push 0 0, 1⟩, ⟨.copy 0, 1⟩, ⟨.push 1 2, 2⟩,
      ⟨.get 1 0, 2⟩, ⟨.push 2 3, 3⟩]
    Sound start ∧
    Program.run Ideal.perform (start.map ideal) program =
      (Program.run perform start program).map id (State.map ideal) ∧
    (Program.run perform start program).2.store.items ⟨0⟩ = [.array ⟨0⟩, .void] ∧
    (Program.run perform start program).2.store.items ⟨1⟩ = [.array ⟨0⟩, .void] :=
  ⟨sound_start, (run_refines_ideal sound_start _).1, rfl, rfl⟩

end ScriptHost.Program
