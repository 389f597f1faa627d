import ScriptHost.EvalError
import ScriptHost.Value

/-!
Arithmetic on values. Both operands have to be of one type, and the type has to be a numeric one:
integers are checked for overflow, bytes wrap modulo 256, and floats follow IEEE 754. A remainder
exists for integers only.
-/

namespace ScriptHost

/-- An arithmetic operator. -/
inductive BinaryOp
  | add
  | sub
  | mul
  | div
  | mod
deriving DecidableEq

def BinaryOp.symbol : BinaryOp → String
  | add => "+"
  | sub => "-"
  | mul => "*"
  | div => "/"
  | mod => "%"

namespace Arithmetic

/-- The exact result, or an overflow in the named operation. -/
def checked (operation : String) : Option Integer → Except EvalError.Cause Value
  | some n => .ok (.integer n)
  | none => .error (.integerOverflow operation)

def integers (op : BinaryOp) (a b : Integer) : Except EvalError.Cause Value :=
  match op with
  | .add => checked "addition" (a.add? b)
  | .sub => checked "subtraction" (a.sub? b)
  | .mul => checked "multiplication" (a.mul? b)
  | .div => if b.val = 0 then .error .divisionByZero else checked "division" (a.div? b)
  | .mod => if b.val = 0 then .error .moduloByZero else checked "remainder" (a.rem? b)

/-- Arithmetic on floats. Division by zero gives an infinity or NaN. -/
def floats (op : BinaryOp) (a b : Float) : Except EvalError.Cause Value :=
  match op with
  | .add => .ok (.float (a + b))
  | .sub => .ok (.float (a - b))
  | .mul => .ok (.float (a * b))
  | .div => .ok (.float (a / b))
  | .mod => .error (.invalidBinaryOp Tag.float.name op.symbol)

def bytes (op : BinaryOp) (a b : UInt8) : Except EvalError.Cause Value :=
  match op with
  | .add => .ok (.byte (a + b))
  | .sub => .ok (.byte (a - b))
  | .mul => .ok (.byte (a * b))
  | .div => if b = 0 then .error .divisionByZero else .ok (.byte (a / b))
  | .mod => .error (.invalidBinaryOp Tag.byte.name op.symbol)

/-- Applies an operator, with the cause if it cannot be applied. -/
def apply (op : BinaryOp) (a b : Value) : Except EvalError.Cause Value :=
  match a, b with
  | .integer m, .integer n => integers op m n
  | .float x, .float y => floats op x y
  | .byte x, .byte y => bytes op x y
  | _, _ =>
    if a.tag = b.tag then .error (.invalidBinaryOp a.typeName op.symbol)
    else .error (.binaryTypeMismatch a.typeName b.typeName)

end Arithmetic

def Value.binary (op : BinaryOp) (a b : Value) : Except EvalError Value :=
  (Arithmetic.apply op a b).mapError fun cause => { cause }

end ScriptHost
