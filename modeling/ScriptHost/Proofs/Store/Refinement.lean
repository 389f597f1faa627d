import ScriptHost.Native.Result
import ScriptHost.Proofs.Store.Ideal

/-!
The store of shared objects as an implementation of the ideal store. Each operation does what it
does in the ideal store if the containers that it is given are held, and it leads only to values
that refer to containers which are held again.
-/

namespace ScriptHost

open Program

namespace Store

def perform (s : Store) : Effect → Answer × Store
  | .text content =>
    let (v, s) := s.newString content
    (.found (some v), s)
  | .tuple first second =>
    let (v, s) := s.newTuple first second
    (.found (some v), s)
  | .first tuple => (.found (tuple.pair?.map Prod.fst), s)
  | .second tuple => (.found (tuple.pair?.map Prod.snd), s)
  | .array items =>
    let (v, s) := ToValue.toValue items s
    (.found (some v), s)
  | .bytes content =>
    let (v, s) := ToValue.toValue content s
    (.found (some v), s)
  | .copy ref =>
    let (copy, s) := s.copyArray ref
    (.found (some (.array copy)), s)
  | .push ref item => (.done, s.push ref item)
  | .pop ref =>
    let (last, s) := s.pop ref
    (.found last, s)
  | .get ref index => (.found (s.items ref)[index]?, s)
  | .set ref index item =>
    let (previous, s) := s.setItem ref index item
    (.found previous, s)
  | .length ref => (.count (s.items ref).length, s)
  | .isEmpty ref => (.truth (s.items ref).isEmpty, s)
  | .struct fields =>
    let (ref, s) := s.newStruct (.ofList fields)
    (.found (some (.struct ref)), s)
  | .setField ref name value =>
    let (previous, s) := s.setField ref name value
    (.found previous, s)
  | .removeField ref name =>
    let (previous, s) := s.removeField ref name
    (.found previous, s)
  | .getField ref name => (.found ((s.fields ref).get? name), s)
  | .hasField ref name => (.truth ((s.fields ref).contains name), s)
  | .fieldCount ref => (.count (s.fields ref).size, s)

/-- The store as an ideal one. -/
def ideal (s : Store) : Ideal where
  lists := s.items
  maps ref := (s.fields ref).toFinmap
  arrays := s.arrays.size
  structs := s.structs.size
  stamps := s.stamps

variable {s t : Store}

theorem ideal_ext {σ : Ideal} (lists : ∀ ref, s.items ref = σ.lists ref)
    (maps : ∀ ref, (s.fields ref).toFinmap = σ.maps ref) (arrays : s.arrays.size = σ.arrays)
    (structs : s.structs.size = σ.structs) (stamps : s.stamps = σ.stamps) : s.ideal = σ := by
  obtain ⟨_, _, _, _, _⟩ := σ
  obtain rfl := funext lists
  obtain rfl := funext maps
  subst arrays structs stamps
  rfl

theorem newArray_refines (s : Store) (items : List Value) :
    s.ideal.addList items =
      (.found (some (.array (s.newArray items).1)), (s.newArray items).2.ideal) := by
  refine Prod.ext rfl (ideal_ext (fun ref => ?_) (fun _ => rfl) ?_ rfl rfl).symm
  · rw [items_newArray]
    exact (Function.update_apply s.ideal.lists _ _ ref).symm
  · exact Array.size_push ..

theorem newStruct_refines (s : Store) (fields : NameMap Value) :
    s.ideal.addMap fields.toFinmap =
      (.found (some (.struct (s.newStruct fields).1)), (s.newStruct fields).2.ideal) := by
  refine Prod.ext rfl (ideal_ext (fun _ => rfl) (fun ref => ?_) rfl ?_ rfl).symm
  · rw [fields_newStruct, apply_ite NameMap.toFinmap]
    exact (Function.update_apply s.ideal.maps _ _ ref).symm
  · exact Array.size_push ..

theorem setItems_refines (effect : Effect) {ref : ArrayRef} {items : List Value}
    (held : s.Holds (.array ref)) (target : target? effect = some (.array ref))
    (edited : items = editItems effect (s.items ref)) :
    s.ideal.change effect = (s.setItems ref items).ideal := by
  rw [Ideal.change_of_array _ target]
  refine (ideal_ext (fun other => ?_) (fun _ => rfl) (Array.size_setIfInBounds ..) rfl rfl).symm
  rw [items_setItems held, edited]
  by_cases same : ref = other
  · subst same
    rw [if_pos rfl]
    exact (Function.update_self ref _ s.ideal.lists).symm
  · rw [if_neg same]
    exact (Function.update_of_ne (Ne.symm same) _ s.ideal.lists).symm

theorem setFields_refines (effect : Effect) {ref : StructRef} {fields : NameMap Value}
    (held : s.Holds (.struct ref)) (target : target? effect = some (.struct ref))
    (edited : fields.toFinmap = editFields effect (s.fields ref).toFinmap) :
    s.ideal.change effect = (s.setFields ref fields).ideal := by
  rw [Ideal.change_of_struct _ target]
  refine (ideal_ext (fun _ => rfl) (fun other => ?_) rfl (Array.size_setIfInBounds ..) rfl).symm
  rw [fields_setFields held]
  by_cases same : ref = other
  · subst same
    rw [if_pos rfl, edited]
    exact (Function.update_self ref _ s.ideal.maps).symm
  · rw [if_neg same]
    exact (Function.update_of_ne (Ne.symm same) _ s.ideal.maps).symm

/-! ### References that were given out -/

/-- The containers that a value refers to are held. -/
def Knows (s : Store) : Value → Prop
  | .array ref => s.Holds (.array ref)
  | .struct ref => s.Holds (.struct ref)
  | .tuple _ first second => s.Knows first ∧ s.Knows second
  | _ => True

/-- What an operation is given is known. -/
def KnowsAll (s : Store) : Effect → Prop
  | .tuple first second => s.Knows first ∧ s.Knows second
  | .first tuple | .second tuple => s.Knows tuple
  | .array items => ∀ v ∈ items, s.Knows v
  | .copy ref | .pop ref | .get ref _ | .length ref | .isEmpty ref => s.Holds (.array ref)
  | .push ref item | .set ref _ item => s.Holds (.array ref) ∧ s.Knows item
  | .struct fields => ∀ field ∈ fields, s.Knows field.2
  | .setField ref _ value => s.Holds (.struct ref) ∧ s.Knows value
  | .removeField ref _ | .getField ref _ | .hasField ref _ | .fieldCount ref =>
    s.Holds (.struct ref)
  | .text _ | .bytes _ => True

/-- An operation on what is known has the answer that the ideal store gives, and changes the store
as it changes the ideal one. -/
theorem perform_refines {effect : Effect} (known : s.KnowsAll effect) :
    s.ideal.perform effect = (s.perform effect).map id ideal := by
  cases effect with
  | text content => rfl
  | tuple first second => rfl
  | first tuple => rfl
  | second tuple => rfl
  | array items => exact s.newArray_refines items
  | bytes content => exact s.newArray_refines _
  | copy ref => exact s.newArray_refines _
  | push ref item => exact Prod.ext rfl (setItems_refines (.push ref item) known.1 rfl rfl)
  | pop ref =>
    exact Prod.ext rfl (setItems_refines (.pop ref) known rfl List.dropLast_eq_take)
  | get ref index => rfl
  | set ref index item =>
    refine Prod.ext rfl (setItems_refines (.set ref index item) known.1 rfl ?_)
    exact List.set_eq_take_append_cons_drop
  | length ref => rfl
  | isEmpty ref =>
    refine Prod.ext (congrArg Answer.truth ?_) rfl
    change decide ((s.items ref).length = 0) = (s.items ref).isEmpty
    cases s.items ref <;> rfl
  | struct fields =>
    have refines := s.newStruct_refines (.ofList fields)
    rwa [NameMap.toFinmap_ofList] at refines
  | setField ref name value =>
    refine Prod.ext (congrArg Answer.found ?_)
      (setFields_refines (.setField ref name value) known.1 rfl (NameMap.toFinmap_insert ..))
    exact NameMap.lookup_toFinmap ..
  | removeField ref name =>
    refine Prod.ext (congrArg Answer.found ?_)
      (setFields_refines (.removeField ref name) known rfl (NameMap.toFinmap_erase ..))
    exact NameMap.lookup_toFinmap ..
  | getField ref name => exact Prod.ext (congrArg Answer.found (NameMap.lookup_toFinmap ..)) rfl
  | hasField ref name =>
    refine Prod.ext (congrArg Answer.truth ?_) rfl
    change decide (name ∈ (s.fields ref).toFinmap) = (s.fields ref).contains name
    rw [Bool.eq_iff_iff, decide_eq_true_iff, ← Finmap.lookup_isSome, NameMap.lookup_toFinmap]
    rfl
  | fieldCount ref => exact Prod.ext (congrArg Answer.count (NameMap.card_keys_toFinmap _)) rfl

/-! ### Nothing unknown turns up -/

/-- Every container that another one refers to is held. -/
structure SelfContained (s : Store) : Prop where
  items : ∀ ref, ∀ v ∈ s.items ref, s.Knows v
  fields : ∀ ref name v, (s.fields ref).get? name = some v → s.Knows v

/-- The second store has all containers of the first one. -/
structure Extends (s t : Store) : Prop where
  arrays : s.arrays.size ≤ t.arrays.size
  structs : s.structs.size ≤ t.structs.size

theorem Extends.knows (longer : Extends s t) {v : Value} (known : s.Knows v) : t.Knows v := by
  induction v with
  | array ref => exact Nat.lt_of_lt_of_le known longer.arrays
  | struct ref => exact Nat.lt_of_lt_of_le known longer.structs
  | tuple stamp first second first_ih second_ih => exact ⟨first_ih known.1, second_ih known.2⟩
  | _ => trivial

theorem extends_newArray (s : Store) (items : List Value) : Extends s (s.newArray items).2 :=
  ⟨(Array.size_push ..).symm ▸ Nat.le_succ _, le_rfl⟩

theorem extends_newStruct (s : Store) (fields : NameMap Value) :
    Extends s (s.newStruct fields).2 :=
  ⟨le_rfl, (Array.size_push ..).symm ▸ Nat.le_succ _⟩

theorem extends_setItems (s : Store) (ref : ArrayRef) (items : List Value) :
    Extends s (s.setItems ref items) :=
  ⟨(Array.size_setIfInBounds ..).ge, le_rfl⟩

theorem extends_setFields (s : Store) (ref : StructRef) (fields : NameMap Value) :
    Extends s (s.setFields ref fields) :=
  ⟨le_rfl, (Array.size_setIfInBounds ..).ge⟩

namespace SelfContained

variable (contained : s.SelfContained)
include contained

theorem newArray {items : List Value} (known : ∀ v ∈ items, s.Knows v) :
    (s.newArray items).2.SelfContained := by
  have longer := s.extends_newArray items
  refine ⟨fun ref v member => longer.knows ?_, fun ref name v bound => ?_⟩
  · rw [items_newArray] at member
    split at member
    · exact known v member
    · exact contained.items ref v member
  · exact longer.knows (contained.fields ref name v bound)

theorem newStruct {fields : NameMap Value}
    (known : ∀ name v, fields.get? name = some v → s.Knows v) :
    (s.newStruct fields).2.SelfContained := by
  have longer := s.extends_newStruct fields
  refine ⟨fun ref v member => longer.knows (contained.items ref v member),
    fun ref name v bound => longer.knows ?_⟩
  rw [fields_newStruct] at bound
  split at bound
  · exact known name v bound
  · exact contained.fields ref name v bound

theorem setItems {ref : ArrayRef} (held : s.Holds (.array ref)) {items : List Value}
    (known : ∀ v ∈ items, s.Knows v) : (s.setItems ref items).SelfContained := by
  have longer := s.extends_setItems ref items
  refine ⟨fun other v member => longer.knows ?_, fun other name v bound => ?_⟩
  · rw [items_setItems held] at member
    split at member
    · exact known v member
    · exact contained.items other v member
  · exact longer.knows (contained.fields other name v bound)

theorem setFields {ref : StructRef} (held : s.Holds (.struct ref)) {fields : NameMap Value}
    (known : ∀ name v, fields.get? name = some v → s.Knows v) :
    (s.setFields ref fields).SelfContained := by
  have longer := s.extends_setFields ref fields
  refine ⟨fun other v member => longer.knows (contained.items other v member),
    fun other name v bound => longer.knows ?_⟩
  rw [fields_setFields held] at bound
  split at bound
  · exact known name v bound
  · exact contained.fields other name v bound

end SelfContained

/-- What an operation leaves behind: the containers that were there, a store that is contained in
itself, and an answer from it. -/
structure Leaves (s : Store) (result : Answer × Store) : Prop where
  longer : Extends s result.2
  contained : result.2.SelfContained
  answer : ∀ v, result.1 = .found (some v) → result.2.Knows v

theorem Leaves.of_unchanged (contained : s.SelfContained) {answer : Answer}
    (known : ∀ v, answer = .found (some v) → s.Knows v) : Leaves s (answer, s) :=
  ⟨⟨le_rfl, le_rfl⟩, contained, known⟩

theorem leaves_newArray (contained : s.SelfContained) {items : List Value}
    (known : ∀ v ∈ items, s.Knows v) :
    Leaves s (.found (some (.array (s.newArray items).1)), (s.newArray items).2) where
  longer := s.extends_newArray items
  contained := contained.newArray known
  answer v found := by
    obtain rfl := Option.some.inj (Answer.found.inj found)
    change s.arrays.size < (s.arrays.push items).size
    rw [Array.size_push]
    exact Nat.lt_succ_self _

theorem leaves_newStruct (contained : s.SelfContained) {fields : NameMap Value}
    (known : ∀ name v, fields.get? name = some v → s.Knows v) :
    Leaves s (.found (some (.struct (s.newStruct fields).1)), (s.newStruct fields).2) where
  longer := s.extends_newStruct fields
  contained := contained.newStruct known
  answer v found := by
    obtain rfl := Option.some.inj (Answer.found.inj found)
    change s.structs.size < (s.structs.push fields).size
    rw [Array.size_push]
    exact Nat.lt_succ_self _

theorem leaves_freshStamp (contained : s.SelfContained) {v : Value} (known : s.Knows v) :
    Leaves s (.found (some v), s.freshStamp.2) := by
  have longer : Extends s s.freshStamp.2 := ⟨le_rfl, le_rfl⟩
  refine ⟨longer, ⟨fun ref v member => longer.knows (contained.items ref v member),
    fun ref name v bound => longer.knows (contained.fields ref name v bound)⟩, fun v found => ?_⟩
  obtain rfl := Option.some.inj (Answer.found.inj found)
  exact longer.knows known

theorem leaves_setItems (contained : s.SelfContained) {ref : ArrayRef} {items : List Value}
    (held : s.Holds (.array ref)) (known : ∀ v ∈ items, s.Knows v) {answer : Answer}
    (answered : ∀ v, answer = .found (some v) → v ∈ s.items ref) :
    Leaves s (answer, s.setItems ref items) where
  longer := s.extends_setItems ref items
  contained := contained.setItems held known
  answer v found :=
    (s.extends_setItems ref items).knows (contained.items ref v (answered v found))

theorem leaves_setFields (contained : s.SelfContained) {ref : StructRef} {fields : NameMap Value}
    (held : s.Holds (.struct ref)) (known : ∀ name v, fields.get? name = some v → s.Knows v)
    (name : String) :
    Leaves s (.found ((s.fields ref).get? name), s.setFields ref fields) where
  longer := s.extends_setFields ref fields
  contained := contained.setFields held known
  answer v found := (s.extends_setFields ref fields).knows
    (contained.fields ref name v (Answer.found.inj found))

theorem knows_of_ofList {bindings : List (String × Value)}
    (known : ∀ binding ∈ bindings, s.Knows binding.2) {name : String} {v : Value}
    (bound : (NameMap.ofList bindings).get? name = some v) : s.Knows v := by
  have last := NameMap.get?_foldl_insert bindings ∅ name
  rw [NameMap.get?_empty, Option.or_none] at last
  obtain ⟨front, back, split, _⟩ := List.lookup_eq_some_iff.1 (last.symm.trans bound)
  have member : (name, v) ∈ bindings.reverse := by
    rw [split]
    exact List.mem_append_right front List.mem_cons_self
  exact known _ (List.mem_reverse.1 member)

theorem knows_of_pair? {v : Value} {pair : Value × Value} (known : s.Knows v)
    (found : v.pair? = some pair) : s.Knows pair.1 ∧ s.Knows pair.2 := by
  cases v with
  | tuple stamp first second =>
    obtain rfl := Option.some.inj found
    exact known
  | _ => cases found

/-- Operations on what is known lead to nothing unknown. -/
theorem perform_leaves (contained : s.SelfContained) {effect : Effect} (known : s.KnowsAll effect) :
    Leaves s (s.perform effect) := by
  have item {ref : ArrayRef} {index : Nat} {v : Value}
      (found : Answer.found (s.items ref)[index]? = .found (some v)) : s.Knows v :=
    contained.items ref v (List.mem_of_getElem? (Answer.found.inj found))
  have field {ref : StructRef} {name : String} {v : Value}
      (found : Answer.found ((s.fields ref).get? name) = .found (some v)) : s.Knows v :=
    contained.fields ref name v (Answer.found.inj found)
  cases effect with
  | text content => exact leaves_freshStamp contained trivial
  | tuple first second => exact leaves_freshStamp contained known
  | first tuple =>
    refine .of_unchanged contained fun v found => ?_
    obtain ⟨pair, parts, rfl⟩ := Option.map_eq_some_iff.1 (Answer.found.inj found)
    exact (knows_of_pair? known parts).1
  | second tuple =>
    refine .of_unchanged contained fun v found => ?_
    obtain ⟨pair, parts, rfl⟩ := Option.map_eq_some_iff.1 (Answer.found.inj found)
    exact (knows_of_pair? known parts).2
  | array items => exact leaves_newArray contained known
  | bytes content =>
    refine leaves_newArray contained fun v member => ?_
    obtain ⟨b, _, rfl⟩ := List.mem_map.1 member
    trivial
  | copy ref => exact leaves_newArray contained (contained.items ref)
  | push ref item =>
    refine leaves_setItems contained known.1 (fun v member => ?_) nofun
    rcases List.mem_append.1 member with old | new
    · exact contained.items ref v old
    · exact List.mem_singleton.1 new ▸ known.2
  | pop ref =>
    exact leaves_setItems contained known
      (fun v member => contained.items ref v (List.dropLast_subset _ member))
      fun v found => List.mem_of_getLast? (Answer.found.inj found)
  | get ref index => exact .of_unchanged contained fun _ => item
  | set ref index item =>
    refine leaves_setItems contained known.1 (fun v member => ?_)
      fun v found => List.mem_of_getElem? (Answer.found.inj found)
    rcases List.mem_or_eq_of_mem_set member with old | rfl
    · exact contained.items ref v old
    · exact known.2
  | length ref => exact .of_unchanged contained nofun
  | isEmpty ref => exact .of_unchanged contained nofun
  | struct fields => exact leaves_newStruct contained fun _ _ => knows_of_ofList known
  | setField ref name value =>
    refine leaves_setFields contained known.1 (fun other v bound => ?_) name
    rw [NameMap.get?_insert] at bound
    split at bound
    · exact Option.some.inj bound ▸ known.2
    · exact contained.fields ref other v bound
  | removeField ref name =>
    refine leaves_setFields contained known (fun other v bound => ?_) name
    rw [NameMap.get?_erase] at bound
    split at bound
    · cases bound
    · exact contained.fields ref other v bound
  | getField ref name => exact .of_unchanged contained fun _ => field
  | hasField ref name => exact .of_unchanged contained nofun
  | fieldCount ref => exact .of_unchanged contained nofun

/-! ### Operations that find nothing -/

theorem setIfInBounds_getD {α : Type} (xs : Array α) (i : Nat) (other : α) :
    xs.setIfInBounds i (xs[i]?.getD other) = xs := by
  refine Array.ext (Array.size_setIfInBounds ..) fun j _ inside => ?_
  rw [Array.getElem_setIfInBounds inside]
  split
  next same =>
    subst same
    rw [Array.getElem?_eq_getElem inside, Option.getD_some]
  next => rfl

theorem setItems_self (s : Store) (ref : ArrayRef) : s.setItems ref (s.items ref) = s := by
  rw [setItems, items, setIfInBounds_getD]

theorem setFields_self (s : Store) (ref : StructRef) : s.setFields ref (s.fields ref) = s := by
  rw [setFields, fields, setIfInBounds_getD]

variable (s : Store)

theorem perform_set_outside {ref : ArrayRef} {index : Nat}
    (outside : (s.items ref).length ≤ index) (item : Value) :
    s.perform (.set ref index item) = (.found none, s) := by
  change (Answer.found (s.items ref)[index]?, s.setItems ref ((s.items ref).set index item)) = _
  rw [List.getElem?_eq_none outside, List.set_eq_of_length_le outside, setItems_self]

theorem perform_pop_empty {ref : ArrayRef} (empty : s.items ref = []) :
    s.perform (.pop ref) = (.found none, s) := by
  have same := s.setItems_self ref
  change (Answer.found (s.items ref).getLast?, s.setItems ref (s.items ref).dropLast) = _
  rw [empty] at same ⊢
  exact Prod.ext rfl same

theorem perform_removeField_absent {ref : StructRef} {name : String}
    (absent : (s.fields ref).get? name = none) :
    s.perform (.removeField ref name) = (.found none, s) := by
  have same : (s.fields ref).erase name = s.fields ref := by
    refine NameMap.eq_of_get?_eq fun other => ?_
    rw [NameMap.get?_erase]
    split
    next met => rw [← met, absent]
    next => rfl
  change (Answer.found ((s.fields ref).get? name), s.setFields ref ((s.fields ref).erase name)) = _
  rw [absent, same, setFields_self]

/-- A copy is a new array with the same items. -/
theorem perform_copy (ref : ArrayRef) : ∃ copy later,
    s.perform (.copy ref) = (.found (some (.array copy)), later) ∧
      ¬s.Holds (.array copy) ∧ later.Holds (.array copy) ∧ later.items copy = s.items ref := by
  refine ⟨_, _, rfl, Nat.lt_irrefl _, ?_, ?_⟩
  · change s.arrays.size < (s.arrays.push (s.items ref)).size
    rw [Array.size_push]
    exact Nat.lt_succ_self _
  · exact (s.items_newArray _ _).trans (if_pos rfl)

end Store

end ScriptHost
