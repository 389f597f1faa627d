import ScriptHost.Proofs.Native.Arguments
import ScriptHost.Value.Container

/-!
Values on their way to a host function and back. A parameter takes the values of its type and no
others, and what it makes of a value is the value again when it is handed back: the same object if
objects are shared, and the same content if they are not.
-/

namespace ScriptHost

namespace Store

variable {s : Store} {v : Value}

/-- The items that a store has for a value, if this is an array. -/
def itemsOf? (s : Store) (v : Value) : Option (List Value) :=
  v.array?.map s.items

/-- The fields that a store has for a value, if this is a struct. -/
def fieldsOf? (s : Store) (v : Value) : Option (NameMap Value) :=
  v.struct?.map s.fields

theorem itemsOf?_setItems {ref : ArrayRef} (held : s.Holds (.array ref)) (items : List Value) :
    (s.setItems ref items).itemsOf? (.array ref) = some items := by
  show some ((s.setItems ref items).items ref) = some items
  rw [items_setItems held, if_pos rfl]

theorem fieldsOf?_setFields {ref : StructRef} (held : s.Holds (.struct ref))
    (fields : NameMap Value) : (s.setFields ref fields).fieldsOf? (.struct ref) = some fields := by
  show some ((s.setFields ref fields).fields ref) = some fields
  rw [fields_setFields held, if_pos rfl]

end Store

namespace ParamType

variable {t : ParamType} {v : Value} {s : Store}

/-- What comes back of a value that was an argument: the value itself, or a new string or tuple with
the same content. -/
inductive GivesBack (s : Store) : ParamType → Value → Value × Store → Prop
  | itself {t : ParamType} {v : Value} (shared : t ≠ .string ∧ t ≠ .tuple) :
    GivesBack s t v (v, s)
  | string (stamp : Stamp) (text : String) :
    GivesBack s .string (.string stamp text) (s.newString text)
  | tuple (stamp : Stamp) (first second : Value) :
    GivesBack s .tuple (.tuple stamp first second) (s.newTuple first second)

theorem convert_eq_ok_iff {arg : t.Arg} {position : Nat} :
    t.convert v position = .ok arg ↔ t.Carries v arg := by
  rw [← accept_eq_some_iff, convert]
  cases t.accept v <;> simp

theorem exists_convert_iff (position : Nat) :
    (∃ arg, t.convert v position = .ok arg) ↔ t.Takes v := by
  constructor
  · rintro ⟨arg, given⟩
    by_contra refused
    cases (convert_of_not_takes refused position).symm.trans given
  · intro takes
    obtain ⟨arg, carries⟩ := takes.exists_carries
    exact ⟨arg, convert_of_carries carries position⟩

theorem givesBack_of_carries {arg : t.Arg} (carries : t.Carries v arg) (s : Store) :
    GivesBack s t v (t.toValue arg s) := by
  cases t with
  | string =>
    obtain ⟨stamp, rfl⟩ := carries
    exact .string stamp arg
  | tuple =>
    obtain ⟨stamp, rfl⟩ := carries
    exact .tuple stamp arg.1 arg.2
  | _ =>
    obtain rfl := carries
    exact .itself ⟨nofun, nofun⟩

/-- A result that could be an argument carries what it was made of. -/
theorem carries_toValue (t : ParamType) (x : t.Arg) (s : Store) :
    t.Carries (t.toValue x s).1 x := by
  cases t with
  | string => exact ⟨s.freshStamp.1, rfl⟩
  | tuple => exact ⟨s.freshStamp.1, rfl⟩
  | _ => exact rfl

/-- A value is an argument for a parameter exactly if the parameter takes any value or asks for the
type of this one, so that no integer is taken for a float, although it can be read as one. Handing
an argument back gives the value it came from, and a result that is taken as an argument is what it
was. An array or a struct that is an argument is the one that the caller has: a store that is
changed through the argument is changed for the value. -/
theorem marshalling_exact (t : ParamType) (v : Value) (position : Nat) :
    ((∃ arg, t.convert v position = .ok arg) ↔ t = .any ∨ v.typeName = t.name) ∧
    (∀ n, v = .integer n → v.number? = some n.toFloat ∧
      ∀ x, ParamType.float.convert v position ≠ .ok x) ∧
    (∀ arg, t.convert v position = .ok arg → ∀ s, GivesBack s t v (t.toValue arg s)) ∧
    (∀ (x : t.Arg) (s : Store), t.accept (t.toValue x s).1 = some x ∧
      t.convert (t.toValue x s).1 position = .ok x) ∧
    (∀ ref, ParamType.array.convert v position = .ok ref → ∀ s : Store,
      s.itemsOf? v = some (s.items ref) ∧ (s.Holds (.array ref) →
        ∀ items, (s.setItems ref items).itemsOf? v = some items)) ∧
    ∀ ref, ParamType.struct.convert v position = .ok ref → ∀ s : Store,
      s.fieldsOf? v = some (s.fields ref) ∧ (s.Holds (.struct ref) →
        ∀ fields, (s.setFields ref fields).fieldsOf? v = some fields) := by
  refine ⟨exists_convert_iff position, fun n isInteger => ?integer, fun arg given s => ?back,
    fun x s => ?again, fun ref given s => ?array, fun ref given s => ?struct⟩
  case integer =>
    subst isInteger
    refine ⟨rfl, fun x given => ?_⟩
    have isFloat : Value.integer n = .float x := convert_eq_ok_iff.1 given
    cases isFloat
  case back => exact givesBack_of_carries (convert_eq_ok_iff.1 given) s
  case again =>
    have carries := carries_toValue t x s
    exact ⟨accept_eq_some_iff.2 carries, convert_eq_ok_iff.2 carries⟩
  case array =>
    obtain rfl : v = .array ref := convert_eq_ok_iff.1 given
    exact ⟨rfl, Store.itemsOf?_setItems⟩
  case struct =>
    obtain rfl : v = .struct ref := convert_eq_ok_iff.1 given
    exact ⟨rfl, Store.fieldsOf?_setFields⟩

end ParamType

end ScriptHost
