import ScriptHost.Integer
import ScriptHost.Numeral

/-!
Literals of source text and how raw text is classified: decimal text of an integer in range is an
integer, a number written with a point or an exponent is a float, and any other text is a string
that holds it unchanged.
-/

namespace ScriptHost

/-- A classified literal. -/
inductive Literal
  | string (text : String)
  | float (number : Float)
  | integer (number : Integer)
  | byte (number : UInt8)

namespace Literal

/-! ### Reading numbers -/

/-- Reads decimal text of an integer in range, with a sign of either kind or without one. -/
def integerOf? (text : List Char) : Option Integer :=
  let (negative, digits) := Numeral.splitSign text
  if digits ≠ [] ∧ digits.all Char.isDigit then
    Integer.ofInt? (Numeral.signed negative (Numeral.valueOfDigits digits))
  else none

open Float.Model in
/-- The floats that have a word of their own. -/
def floatOfWord? (word : String) : Option Float :=
  match word with
  | "inf" | "infinity" => some (.ofModel (.pack (.infinity .positive)))
  | "nan" => some (.ofModel (.pack .notANumber))
  | _ => none

/-- Reads a float: a number of any size, or a word in letters of any case, with a sign of either
kind or without one. -/
def floatOf? (text : List Char) : Option Float :=
  match Numeral.ofChars? text with
  | some n => some n.toFloat
  | none =>
    let (negative, word) := Numeral.splitSign text
    (floatOfWord? (String.ofList (word.map Char.toLower))).map fun x => if negative then -x else x

/-! ### Classification -/

def withoutMinus : List Char → List Char
  | '-' :: body => body
  | body => body

/-- Whether a text looks like an integer: at least one digit and nothing else, apart from a minus
sign in front. -/
def isDecimal (text : List Char) : Bool :=
  let digits := withoutMinus text
  !digits.isEmpty && digits.all Char.isDigit

/-- The characters that a float is written with. -/
def isFloatChar (c : Char) : Bool :=
  c.isDigit || c = '.' || c = 'e' || c = 'E' || c = '+' || c = '-'

/-- Whether a text looks like a float: after a minus sign, if any, it starts with a digit or the
point, has a digit, has a point or the mark of an exponent, and nothing that a word would have. -/
def looksLikeFloat (text : List Char) : Bool :=
  let body := withoutMinus text
  body.head?.any (fun c => c.isDigit || c = '.') && body.any Char.isDigit &&
    body.any (fun c => c = '.' || c = 'e' || c = 'E') && body.all isFloatChar

/-- Classifies raw text. Integers out of range stay text. -/
def ofText (text : String) : Literal :=
  let chars := text.toList
  match if isDecimal chars then integerOf? chars else none with
  | some n => integer n
  | none =>
    match if looksLikeFloat chars then floatOf? chars else none with
    | some x => float x
    | none => string text

/-- Equality of literals: same kind and same content. Floats compare as numbers, so a NaN literal
is not even equal to itself. -/
def equals : Literal → Literal → Bool
  | string a, string b => a = b
  | float a, float b => a == b
  | integer a, integer b => a = b
  | byte a, byte b => a = b
  | _, _ => false

end Literal

end ScriptHost
