import ScriptHost.Integer

/-!
The values of scripts and their type tags. Arrays, structs and file handles are shared: a value
holds a reference into the store, and every copy of the value refers to the same object. Strings and
tuples never change, and carry a stamp that tells which allocation they come from.
-/

namespace ScriptHost

/-- The type of a value, as scripts see it. -/
inductive Tag
  | string
  | float
  | integer
  | byte
  | filehandle
  | longpointer
  | void
  | struct
  | tuple
  | array
deriving DecidableEq

namespace Tag

def all : List Tag :=
  [string, float, integer, byte, filehandle, longpointer, void, struct, tuple, array]

def code : Tag → Nat
  | string => 0
  | float => 1
  | integer => 2
  | byte => 3
  | filehandle => 4
  | longpointer => 5
  | void => 6
  | struct => 7
  | tuple => 8
  | array => 9

/-- The type name that scripts and messages show. -/
def name : Tag → String
  | string => "string"
  | float => "float"
  | integer => "integer"
  | byte => "byte"
  | filehandle => "filehandle"
  | longpointer => "longpointer"
  | void => "void"
  | struct => "struct"
  | tuple => "tuple"
  | array => "array"

end Tag

/-- A reference to an array of the store. -/
structure ArrayRef where
  index : Nat
deriving DecidableEq

/-- A reference to a struct of the store. -/
structure StructRef where
  index : Nat
deriving DecidableEq

/-- A reference to a file handle of the store. -/
structure HandleRef where
  index : Nat
deriving DecidableEq

/-- Tells allocations of strings and tuples apart. -/
structure Stamp where
  index : Nat
deriving DecidableEq

/-- A value of the script language. A long pointer is an address that scripts only pass around. -/
inductive Value
  | string (stamp : Stamp) (text : String)
  | float (number : Float)
  | integer (number : Integer)
  | byte (number : UInt8)
  | filehandle (handle : HandleRef)
  | longpointer (address : UInt64)
  | void
  | struct (fields : StructRef)
  | tuple (stamp : Stamp) (first second : Value)
  | array (items : ArrayRef)

instance : Inhabited Value :=
  ⟨.void⟩

namespace Value

def tag : Value → Tag
  | string _ _ => .string
  | float _ => .float
  | integer _ => .integer
  | byte _ => .byte
  | filehandle _ => .filehandle
  | longpointer _ => .longpointer
  | void => .void
  | struct _ => .struct
  | tuple _ _ _ => .tuple
  | array _ => .array

def typeName (v : Value) : String :=
  v.tag.name

def isVoid : Value → Bool
  | void => true
  | _ => false

/-- Truth values are the integers 1 and 0. -/
def ofBool (b : Bool) : Value :=
  integer (.ofBool b)

def integer? : Value → Option Integer
  | integer n => some n
  | _ => none

def float? : Value → Option Float
  | float x => some x
  | _ => none

/-- The number of a float or integer value as a float. -/
def number? : Value → Option Float
  | float x => some x
  | integer n => some n.toFloat
  | _ => none

def byte? : Value → Option UInt8
  | byte b => some b
  | _ => none

def text? : Value → Option String
  | string _ text => some text
  | _ => none

def address? : Value → Option UInt64
  | longpointer address => some address
  | _ => none

def pair? : Value → Option (Value × Value)
  | tuple _ first second => some (first, second)
  | _ => none

def array? : Value → Option ArrayRef
  | array ref => some ref
  | _ => none

def struct? : Value → Option StructRef
  | struct ref => some ref
  | _ => none

def filehandle? : Value → Option HandleRef
  | filehandle ref => some ref
  | _ => none

/-- Whether two values are one and the same object: the same array, struct or handle, or a string
or tuple of one allocation. Scalars are never objects. -/
def isSameObject : Value → Value → Bool
  | string a _, string b _ => a = b
  | tuple a _ _, tuple b _ _ => a = b
  | array a, array b => a = b
  | struct a, struct b => a = b
  | filehandle a, filehandle b => a = b
  | _, _ => false

end Value

end ScriptHost
