/-!
The integers of scripts: 64-bit, signed, and never wrapping. Arithmetic is done in `Int` and the
exact result is kept when it fits; an operation whose result does not fit has no value.
-/

namespace ScriptHost

/-- An integer between -2^63 and 2^63 - 1. -/
@[ext]
structure Integer where
  val : Int
  lower : -0x8000000000000000 ≤ val := by omega
  upper : val < 0x8000000000000000 := by omega
deriving DecidableEq

namespace Integer

/-- The integer of a given value, if it is in range. -/
def ofInt? (n : Int) : Option Integer :=
  if h : -0x8000000000000000 ≤ n ∧ n < 0x8000000000000000 then some ⟨n, h.1, h.2⟩ else none

theorem ofInt?_eq_some_iff {n : Int} {i : Integer} : ofInt? n = some i ↔ i.val = n := by
  unfold ofInt?
  constructor
  · intro h
    split at h
    · rw [← Option.some.inj h]
    · exact absurd h (by simp)
  · intro h
    have range : -0x8000000000000000 ≤ n ∧ n < 0x8000000000000000 :=
      h ▸ ⟨i.lower, i.upper⟩
    rw [dif_pos range]
    exact congrArg some (Integer.ext h.symm)

theorem ofInt?_eq_none_iff {n : Int} :
    ofInt? n = none ↔ n < -0x8000000000000000 ∨ 0x8000000000000000 ≤ n := by
  unfold ofInt?
  split <;> simp <;> omega

@[simp]
theorem ofInt?_val (i : Integer) : ofInt? i.val = some i :=
  ofInt?_eq_some_iff.2 rfl

/-- A count as an integer; one that is too large becomes the largest integer. -/
def ofNat (n : Nat) : Integer :=
  if h : (n : Int) < 0x8000000000000000 then { val := n } else { val := 0x7FFFFFFFFFFFFFFF }

theorem val_ofNat (n : Nat) : (ofNat n).val = min (n : Int) 0x7FFFFFFFFFFFFFFF := by
  unfold ofNat
  split <;> simp <;> omega

/-- A count that is an integer is this integer. -/
theorem ofNat_eq {n : Nat} {i : Integer} (same : i.val = n) : ofNat n = i := by
  have upper := i.upper
  refine Integer.ext ((val_ofNat n).trans ?_)
  omega

instance : OfNat Integer 0 := ⟨{ val := 0 }⟩

instance : OfNat Integer 1 := ⟨{ val := 1 }⟩

def minusOne : Integer :=
  { val := -1 }

/-- Truth values are written as integers: 1 for true and 0 for false. -/
def ofBool (b : Bool) : Integer :=
  if b then 1 else 0

def add? (a b : Integer) : Option Integer :=
  ofInt? (a.val + b.val)

def sub? (a b : Integer) : Option Integer :=
  ofInt? (a.val - b.val)

def mul? (a b : Integer) : Option Integer :=
  ofInt? (a.val * b.val)

/-- The quotient rounded toward zero. There is none for a zero divisor, nor for the least integer
divided by -1, where the exact quotient is out of range. -/
def div? (a b : Integer) : Option Integer :=
  if b.val = 0 then none else ofInt? (a.val.tdiv b.val)

/-- The remainder, with the sign of the dividend. It exists exactly where the quotient does. -/
def rem? (a b : Integer) : Option Integer :=
  if (a.div? b).isNone then none else ofInt? (a.val.tmod b.val)

/-- The nearest float; of two that are equally near, the one with the even mantissa. -/
def toFloat (i : Integer) : Float :=
  Float.ofInt i.val

/-- Decimal text, with a minus sign in front of a negative integer. -/
def toText (i : Integer) : String :=
  match i.val with
  | .ofNat n => n.repr
  | .negSucc n => "-" ++ (n + 1).repr

instance : Ord Integer := ⟨fun a b => compare a.val b.val⟩

end Integer

end ScriptHost
