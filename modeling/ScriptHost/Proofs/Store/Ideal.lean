import ScriptHost.Proofs.NameMap.Finmap
import ScriptHost.Proofs.Store.Program

/-!
The ideal store of containers: every array is a list and every struct a finite map, each on its own.
A container is named by the number of containers of its kind that were there before it.
-/

namespace ScriptHost.Program

abbrev Fields := Finmap fun _ : String => Value

/-- What an operation makes of the items of the array that it changes. -/
def editItems : Effect → List Value → List Value
  | .push _ item, items => items ++ [item]
  | .pop _, items => items.take (items.length - 1)
  | .set _ index item, items =>
    if index < items.length then items.take index ++ item :: items.drop (index + 1) else items
  | _, items => items

/-- What an operation makes of the fields of the struct that it changes. -/
def editFields : Effect → Fields → Fields
  | .setField _ name value, fields => fields.insert name value
  | .removeField _ name, fields => fields.erase name
  | _, fields => fields

structure Ideal where
  lists : ArrayRef → List Value
  maps : StructRef → Fields
  arrays : Nat
  structs : Nat
  stamps : Nat

namespace Ideal

def addList (σ : Ideal) (items : List Value) : Answer × Ideal :=
  (.found (some (.array ⟨σ.arrays⟩)),
    { σ with lists := Function.update σ.lists ⟨σ.arrays⟩ items, arrays := σ.arrays + 1 })

def addMap (σ : Ideal) (fields : Fields) : Answer × Ideal :=
  (.found (some (.struct ⟨σ.structs⟩)),
    { σ with maps := Function.update σ.maps ⟨σ.structs⟩ fields, structs := σ.structs + 1 })

/-- The change that an operation makes to its container, and to no other one. -/
def change (σ : Ideal) (effect : Effect) : Ideal :=
  match target? effect with
  | some (.array ref) =>
    { σ with lists := Function.update σ.lists ref (editItems effect (σ.lists ref)) }
  | some (.struct ref) =>
    { σ with maps := Function.update σ.maps ref (editFields effect (σ.maps ref)) }
  | none => σ

/-- What an operation answers, from the contents of its container alone, and what becomes of the
store. -/
def perform (σ : Ideal) (effect : Effect) : Answer × Ideal :=
  match effect with
  | .text content =>
    (.found (some (.string ⟨σ.stamps⟩ content)), { σ with stamps := σ.stamps + 1 })
  | .tuple first second =>
    (.found (some (.tuple ⟨σ.stamps⟩ first second)), { σ with stamps := σ.stamps + 1 })
  | .first tuple => (.found (tuple.pair?.map Prod.fst), σ)
  | .second tuple => (.found (tuple.pair?.map Prod.snd), σ)
  | .array items => σ.addList items
  | .bytes content => σ.addList (content.map .byte)
  | .copy ref => σ.addList (σ.lists ref)
  | .push _ _ => (.done, σ.change effect)
  | .pop ref => (.found (σ.lists ref).getLast?, σ.change effect)
  | .get ref index => (.found (σ.lists ref)[index]?, σ)
  | .set ref index _ => (.found (σ.lists ref)[index]?, σ.change effect)
  | .length ref => (.count (σ.lists ref).length, σ)
  | .isEmpty ref => (.truth ((σ.lists ref).length = 0), σ)
  | .struct fields => σ.addMap (fields.reverse.map NameMap.binding).toFinmap
  | .setField ref name _ => (.found ((σ.maps ref).lookup name), σ.change effect)
  | .removeField ref name => (.found ((σ.maps ref).lookup name), σ.change effect)
  | .getField ref name => (.found ((σ.maps ref).lookup name), σ)
  | .hasField ref name => (.truth (name ∈ σ.maps ref), σ)
  | .fieldCount ref => (.count (σ.maps ref).keys.card, σ)

/-! ### What stays as it is -/

section Change

variable (σ : Ideal) {effect : Effect}

theorem change_of_array {ref : ArrayRef} (target : target? effect = some (.array ref)) :
    σ.change effect =
      { σ with lists := Function.update σ.lists ref (editItems effect (σ.lists ref)) } := by
  rw [change, target]

theorem change_of_struct {ref : StructRef} (target : target? effect = some (.struct ref)) :
    σ.change effect =
      { σ with maps := Function.update σ.maps ref (editFields effect (σ.maps ref)) } := by
  rw [change, target]

theorem change_of_none (target : target? effect = none) : σ.change effect = σ := by
  rw [change, target]

theorem lists_change (effect : Effect) (ref : ArrayRef) :
    (σ.change effect).lists ref =
      if target? effect = some (.array ref) then editItems effect (σ.lists ref)
      else σ.lists ref := by
  cases target : target? effect with
  | none => rw [change_of_none σ target, if_neg nofun]
  | some c =>
    cases c with
    | struct other => rw [change_of_struct σ target, if_neg nofun]
    | array other =>
      rw [change_of_array σ target]
      by_cases same : other = ref
      · subst same
        rw [if_pos rfl]
        exact Function.update_self ..
      · rw [if_neg fun met => same (Container.array.inj (Option.some.inj met))]
        exact Function.update_of_ne (Ne.symm same) ..

theorem maps_change (effect : Effect) (ref : StructRef) :
    (σ.change effect).maps ref =
      if target? effect = some (.struct ref) then editFields effect (σ.maps ref)
      else σ.maps ref := by
  cases target : target? effect with
  | none => rw [change_of_none σ target, if_neg nofun]
  | some c =>
    cases c with
    | array other => rw [change_of_array σ target, if_neg nofun]
    | struct other =>
      rw [change_of_struct σ target]
      by_cases same : other = ref
      · subst same
        rw [if_pos rfl]
        exact Function.update_self ..
      · rw [if_neg fun met => same (Container.struct.inj (Option.some.inj met))]
        exact Function.update_of_ne (Ne.symm same) ..

end Change

theorem lists_addList (σ : Ideal) (items : List Value) {ref : ArrayRef}
    (held : ref.index < σ.arrays) : (σ.addList items).2.lists ref = σ.lists ref := by
  refine Function.update_of_ne ?_ ..
  rintro rfl
  exact Nat.lt_irrefl _ held

theorem maps_addMap (σ : Ideal) (fields : Fields) {ref : StructRef}
    (held : ref.index < σ.structs) : (σ.addMap fields).2.maps ref = σ.maps ref := by
  refine Function.update_of_ne ?_ ..
  rintro rfl
  exact Nat.lt_irrefl _ held

/-- An array that is there already is changed only by the operations on it. -/
theorem lists_perform (σ : Ideal) (effect : Effect) {ref : ArrayRef} (held : ref.index < σ.arrays) :
    (σ.perform effect).2.lists ref =
      if target? effect = some (.array ref) then editItems effect (σ.lists ref)
      else σ.lists ref := by
  have changed := lists_change σ effect ref
  cases effect with
  | push _ _ | pop _ | set _ _ _ | setField _ _ _ | removeField _ _ => exact changed
  | array items | bytes content | copy other => exact lists_addList _ _ held
  | _ => rfl

/-- A struct that is there already is changed only by the operations on it. -/
theorem maps_perform (σ : Ideal) (effect : Effect) {ref : StructRef}
    (held : ref.index < σ.structs) :
    (σ.perform effect).2.maps ref =
      if target? effect = some (.struct ref) then editFields effect (σ.maps ref)
      else σ.maps ref := by
  have changed := maps_change σ effect ref
  cases effect with
  | push _ _ | pop _ | set _ _ _ | setField _ _ _ | removeField _ _ => exact changed
  | struct fields => exact maps_addMap _ _ held
  | _ => rfl

end Ideal

end ScriptHost.Program
