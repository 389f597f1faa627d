import ScriptHost.EvalError
import ScriptHost.Value

/-!
Parameters of host functions. A parameter either takes any value or asks for one type, and then
takes values of exactly this type: an integer is not accepted for a float.
-/

namespace ScriptHost

/-- What a parameter of a host function accepts. -/
inductive ParamType
  | any
  | string
  | integer
  | float
  | byte
  | longpointer
  | filehandle
  | array
  | struct
  | tuple
deriving DecidableEq

namespace ParamType

def name : ParamType → String
  | any => "any"
  | string => Tag.string.name
  | integer => Tag.integer.name
  | float => Tag.float.name
  | byte => Tag.byte.name
  | longpointer => Tag.longpointer.name
  | filehandle => Tag.filehandle.name
  | array => Tag.array.name
  | struct => Tag.struct.name
  | tuple => Tag.tuple.name

/-- What the host function gets for an argument. -/
@[reducible]
def Arg : ParamType → Type
  | any => Value
  | string => String
  | integer => Integer
  | float => Float
  | byte => UInt8
  | longpointer => UInt64
  | filehandle => HandleRef
  | array => ArrayRef
  | struct => StructRef
  | tuple => Value × Value

/-- The argument that a value is for the parameter, if it has the right type. -/
def accept : (t : ParamType) → Value → Option t.Arg
  | any, v => some v
  | string, v => v.text?
  | integer, v => v.integer?
  | float, v => v.float?
  | byte, v => v.byte?
  | longpointer, v => v.address?
  | filehandle, v => v.filehandle?
  | array, v => v.array?
  | struct, v => v.struct?
  | tuple, v => v.pair?

/-- The argument that a value is for the parameter, or an error that tells the expected and the
actual type and the position of the argument, counted from 1. -/
def convert (t : ParamType) (v : Value) (position : Nat) : Except EvalError t.Arg :=
  match t.accept v with
  | some arg => .ok arg
  | none =>
    let e : EvalError := { cause := .typeMismatch t.name v.typeName }
    .error (e.withNote ("argument " ++ position.repr))

end ParamType

end ScriptHost
