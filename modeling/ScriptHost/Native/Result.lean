import ScriptHost.Literal
import ScriptHost.Native.Param
import ScriptHost.World

/-!
Results of host functions and the values they become. Objects that exist already are passed on, and
text, tuples and lists are newly allocated.
-/

namespace ScriptHost

/-- Results that can be handed to a script. -/
class ToValue (α : Type) where
  toValue : α → Store → Value × Store

namespace ToValue

instance : ToValue Value :=
  ⟨fun v s => (v, s)⟩

/-- No result is void. -/
instance : ToValue Unit :=
  ⟨fun _ s => (.void, s)⟩

instance : ToValue Bool :=
  ⟨fun b s => (.ofBool b, s)⟩

instance : ToValue Integer :=
  ⟨fun n s => (.integer n, s)⟩

instance : ToValue Float :=
  ⟨fun x s => (.float x, s)⟩

instance : ToValue UInt8 :=
  ⟨fun b s => (.byte b, s)⟩

instance : ToValue UInt64 :=
  ⟨fun address s => (.longpointer address, s)⟩

instance : ToValue HandleRef :=
  ⟨fun ref s => (.filehandle ref, s)⟩

instance : ToValue ArrayRef :=
  ⟨fun ref s => (.array ref, s)⟩

instance : ToValue StructRef :=
  ⟨fun ref s => (.struct ref, s)⟩

instance : ToValue String :=
  ⟨fun text s => s.newString text⟩

/-- A pair becomes a tuple. -/
instance : ToValue (Value × Value) :=
  ⟨fun pair s => s.newTuple pair.1 pair.2⟩

/-- A list becomes an array. -/
instance : ToValue (List Value) :=
  ⟨fun items s =>
    let (ref, s) := s.newArray items
    (.array ref, s)⟩

/-- Raw bytes become an array of byte values. -/
instance : ToValue (List UInt8) :=
  ⟨fun bytes s => toValue (bytes.map Value.byte) s⟩

/-- An absent result is void. -/
instance {α : Type} [ToValue α] : ToValue (Option α) :=
  ⟨fun result s =>
    match result with
    | some a => toValue a s
    | none => (.void, s)⟩

end ToValue

/-- Turns an argument back into a value. -/
def ParamType.toValue : (t : ParamType) → t.Arg → Store → Value × Store
  | any => ToValue.toValue
  | string => ToValue.toValue
  | integer => ToValue.toValue
  | float => ToValue.toValue
  | byte => ToValue.toValue
  | longpointer => ToValue.toValue
  | filehandle => ToValue.toValue
  | array => ToValue.toValue
  | struct => ToValue.toValue
  | tuple => ToValue.toValue

/-- Turns a literal into a value. -/
def Literal.toValue : Literal → Store → Value × Store
  | string text => ToValue.toValue text
  | float number => ToValue.toValue number
  | integer number => ToValue.toValue number
  | byte number => ToValue.toValue number

/-- Hands a result to the script. -/
def Host.give {α : Type} [ToValue α] (result : α) : Host Value :=
  Host.change (ToValue.toValue result)

end ScriptHost
