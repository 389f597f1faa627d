import ScriptHost.Decimal

/-!
Numbers as they are written: an optional sign, decimal digits with an optional point, and an
optional power of ten. Digits are the ten ASCII digits, and words such as `inf` are not numbers.
-/

namespace ScriptHost

/-- The exponent part of a written number. -/
structure Numeral.Exponent where
  negative : Bool
  digits : List Char
deriving DecidableEq

/-- The parts of a written number. There is a fraction if there is a point, even if no digit
follows it. -/
structure Numeral where
  negative : Bool
  whole : List Char
  fraction : Option (List Char)
  exponent : Option Numeral.Exponent
deriving DecidableEq

namespace Numeral

/-- Splits a leading sign off, and tells whether it is a minus sign. -/
def splitSign : List Char → Bool × List Char
  | '-' :: body => (true, body)
  | '+' :: body => (false, body)
  | body => (false, body)

/-- Reads the sign of an exponent and the digits after it, of which there is at least one. -/
def Exponent.ofChars? (text : List Char) : Option Exponent :=
  let (negative, digits) := splitSign text
  if digits ≠ [] ∧ digits.all Char.isDigit then some ⟨negative, digits⟩ else none

/-- Splits a point and the digits after it off. -/
def splitFraction : List Char → Option (List Char) × List Char
  | '.' :: rest => (some (rest.takeWhile Char.isDigit), rest.dropWhile Char.isDigit)
  | rest => (none, rest)

/-- Reads what follows the digits: nothing, or an `e` or `E` with an exponent. -/
def exponentOfTail? : List Char → Option (Option Exponent)
  | [] => some none
  | mark :: rest =>
    if mark = 'e' ∨ mark = 'E' then (Exponent.ofChars? rest).map some else none

/-- All digits in front of the exponent. -/
def significand (n : Numeral) : List Char :=
  n.whole ++ n.fraction.getD []

/-- Reads a whole text as a number, with at least one digit before or after the point. -/
def ofChars? (text : List Char) : Option Numeral :=
  let (negative, body) := splitSign text
  let whole := body.takeWhile Char.isDigit
  let (fraction, tail) := splitFraction (body.dropWhile Char.isDigit)
  match exponentOfTail? tail with
  | none => none
  | some exponent =>
    let n : Numeral := ⟨negative, whole, fraction, exponent⟩
    if n.significand = [] then none else some n

/-- Decimal digits read as a natural number. -/
def valueOfDigits (digits : List Char) : Nat :=
  Nat.ofDigitChars 10 digits 0

def signed (negative : Bool) (n : Nat) : Int :=
  if negative then -(n : Int) else n

def Exponent.toInt (e : Exponent) : Int :=
  signed e.negative (valueOfDigits e.digits)

/-- The power of ten by which the digits are to be scaled once the point is left out. -/
def scale (n : Numeral) : Int :=
  (n.exponent.elim 0 Exponent.toInt) - (n.fraction.getD []).length

/-- How many digits, from the first nonzero one on, can decide between two floats. A number half way
between two floats has at most 767 digits. -/
def decisiveDigits : Nat := 800

/-- The number without its sign, as far as it matters for the nearest float. Digits after the
decisive ones only tell whether there is anything left, and a single 1 does that as well. -/
def magnitude (n : Numeral) : Decimal :=
  let digits := n.significand.dropWhile (· = '0')
  let decisive := digits.take decisiveDigits
  let late := digits.drop decisiveDigits
  if late.all (· = '0') then ⟨valueOfDigits decisive, n.scale + late.length⟩
  else ⟨valueOfDigits (decisive ++ ['1']), n.scale + late.length - 1⟩

/-- The float nearest to the number, even mantissa first; infinite beyond the largest float. The
sign is kept for zero too. -/
def toFloat (n : Numeral) : Float :=
  let d := n.magnitude
  let magnitude := Float.ofModel (.ofScientific d.digits d.exponent)
  if n.negative then -magnitude else magnitude

end Numeral

end ScriptHost
