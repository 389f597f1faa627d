/-!
Decimal fractions: a whole number of some power of ten, and its positional text.
-/

namespace ScriptHost

/-- The number `digits * 10 ^ exponent`. -/
structure Decimal where
  digits : Nat
  exponent : Int
deriving DecidableEq

namespace Decimal

/-- Puts the decimal point in front of the last `places` digits, with zeros filled in on the left so
that a digit stands before the point. -/
def pointed (places : Nat) (digits : List Char) : List Char :=
  let padded := digits.leftpad (places + 1) '0'
  let whole := padded.length - places
  padded.take whole ++ '.' :: padded.drop whole

/-- Positional text, never with an exponent: a whole number has no decimal point, and any other
number has exactly as many places as its exponent asks for. -/
def toText (d : Decimal) : String :=
  let digits := Nat.toDigits 10 d.digits
  match d.exponent with
  | .ofNat zeros => String.ofList (digits ++ List.replicate zeros '0')
  | .negSucc places => String.ofList (pointed (places + 1) digits)

example : toText ⟨3, 0⟩ = "3" ∧ toText ⟨3, 2⟩ = "300" ∧ toText ⟨25, -1⟩ = "2.5" ∧
    toText ⟨25, -4⟩ = "0.0025" := by decide

end Decimal

end ScriptHost
