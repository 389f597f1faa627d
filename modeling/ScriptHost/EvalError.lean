/-!
Errors that scripts see. The cause of an error says what went wrong and has a message of its own,
and notes say where the error came from.
-/

namespace ScriptHost

/-- What went wrong in an evaluation. -/
inductive EvalError.Cause
  | divisionByZero
  | moduloByZero
  | integerOverflow (operation : String)
  | typeMismatch (expected got : String)
  | invalidBinaryOp (typeName op : String)
  | binaryTypeMismatch (left right : String)
  | undefinedFunction (space name : String)
  | arityMismatch (name : String) (expected got : Nat)
  | invalidHandle (operation : String)
  | unsupportedLiteral (what value : String)
  | invalidArgument (function reason : String)
  | nativeFailure (function message : String)
  | custom (message : String)
deriving DecidableEq

/-- The message of a cause. A count of one is not in the plural, and a function without a name is
left out of the message about its arguments. -/
def EvalError.Cause.message : EvalError.Cause → String
  | divisionByZero => "division by zero"
  | moduloByZero => "modulo by zero"
  | integerOverflow operation => "integer overflow in " ++ operation
  | typeMismatch expected got => "type mismatch: expected " ++ expected ++ ", got " ++ got
  | invalidBinaryOp typeName op => "operator `" ++ op ++ "` cannot be applied to " ++ typeName
  | binaryTypeMismatch left right =>
    "cannot apply operator to `" ++ left ++ "` and `" ++ right ++ "`"
  | undefinedFunction space name => "undefined function: " ++ space ++ "." ++ name
  | arityMismatch name expected got =>
    let noun := if expected = 1 then "argument" else "arguments"
    let claim := if name = "" then "expected " else name ++ " expects "
    claim ++ expected.repr ++ " " ++ noun ++ ", got " ++ got.repr
  | invalidHandle operation => operation ++ ": file handle is closed"
  | unsupportedLiteral what value => "unsupported " ++ what ++ " \"" ++ value ++ "\""
  | invalidArgument function reason => function ++ ": " ++ reason
  | nativeFailure function message => "native function " ++ function ++ " failed: " ++ message
  | custom message => message

/-- An error of an evaluation: its cause, a message, and notes in the order in which they were
attached. The message is that of the cause, but a host function may word its errors as it likes. -/
structure EvalError where
  cause : EvalError.Cause
  message : String := cause.message
  notes : List String := []
deriving DecidableEq

namespace EvalError

/-- Attaches a note after those that are there. -/
def withNote (e : EvalError) (note : String) : EvalError :=
  { e with notes := e.notes ++ [note] }

/-- The whole text of an error: its message, and a line for every note. -/
def render (e : EvalError) : String :=
  String.join (e.message :: e.notes.map ("\n  note: " ++ ·))

end EvalError

end ScriptHost
