import Mathlib.Tactic.IntervalCases
import Mathlib.Tactic.Ring
import ScriptHost.Proofs.Numeral

/-!
The positional text of decimals. A whole number has the text that natural numbers have, and a
fraction is read back with the digits and places that it was written with.
-/

namespace ScriptHost

theorem toDigits_mul_pow {n : Nat} (pos : 0 < n) (zeros : Nat) :
    Nat.toDigits 10 (n * 10 ^ zeros) = Nat.toDigits 10 n ++ List.replicate zeros '0' := by
  induction zeros with
  | zero => simp
  | succ zeros ih =>
    have more : 0 < n * 10 ^ zeros := Nat.mul_pos pos (Nat.pow_pos (by decide))
    have last := Nat.toDigits_append_toDigits (b := 10) (by decide) more (d := 0) (by decide)
    rw [List.replicate_succ', ← List.append_assoc, ← ih, ← Nat.toDigits_zero 10, last]
    congr 1
    ring

theorem head?_toDigits_ne_zero {n : Nat} (pos : 0 < n) : (Nat.toDigits 10 n).head? ≠ some '0' := by
  induction n using Nat.strongRecOn with
  | ind n ih =>
    by_cases small : n < 10
    · rw [Nat.toDigits_of_lt_base small]
      interval_cases n <;> decide
    · have front := ih (n / 10) (by omega) (by omega)
      rw [Nat.toDigits_of_base_le (by decide) (by omega)]
      cases digits : Nat.toDigits 10 (n / 10) with
      | nil => exact absurd digits Nat.toDigits_ne_nil
      | cons c rest => rwa [digits] at front

theorem dropWhile_zeros (zeros : Nat) {n : Nat} (pos : 0 < n) :
    (List.replicate zeros '0' ++ Nat.toDigits 10 n).dropWhile (· = '0') = Nat.toDigits 10 n := by
  have head := head?_toDigits_ne_zero pos
  rw [List.dropWhile_append_of_pos fun c member => decide_eq_true (List.eq_of_mem_replicate member)]
  cases digits : Nat.toDigits 10 n with
  | nil => rfl
  | cons c rest =>
    rw [digits] at head
    have other : c ≠ '0' := fun same => head (congrArg some same)
    simp [other]

namespace Decimal

theorem toText_of_nonneg {d : Decimal} (pos : 0 < d.digits) (whole : 0 ≤ d.exponent) :
    d.toText.toList = Nat.toDigits 10 (d.digits * 10 ^ d.exponent.toNat) := by
  obtain ⟨digits, exponent⟩ := d
  obtain ⟨zeros, rfl⟩ := Int.eq_ofNat_of_zero_le whole
  rw [toDigits_mul_pow pos]
  exact String.toList_ofList

theorem toText_of_neg {d : Decimal} {places : Nat} (scaled : d.exponent = -(places : Int))
    (fraction : 0 < places) :
    d.toText.toList = pointed places (Nat.toDigits 10 d.digits) := by
  obtain ⟨digits, exponent⟩ := d
  obtain ⟨rest, rfl⟩ := Nat.exists_eq_add_of_lt fraction
  obtain rfl : exponent = Int.negSucc (0 + rest) := scaled
  exact String.toList_ofList

/-! ### The parts of a fraction -/

/-- The digits of a fraction, with zeros in front so that one of them stands before the point. -/
def padded (digits places : Nat) : List Char :=
  (Nat.toDigits 10 digits).leftpad (places + 1) '0'

/-- The number that is written as the text of a fraction. -/
def numeral (negative : Bool) (digits places : Nat) : Numeral :=
  let whole := (padded digits places).length - places
  ⟨negative, (padded digits places).take whole, some ((padded digits places).drop whole), none⟩

theorem places_lt_length_padded (digits places : Nat) : places < (padded digits places).length := by
  rw [padded, List.length_leftpad]
  omega

theorem isDigit_of_mem_padded {digits places : Nat} : ∀ c ∈ padded digits places, c.isDigit := by
  intro c member
  rcases List.mem_append.1 member with zero | digit
  · rw [List.eq_of_mem_replicate zero]
    decide
  · exact Nat.isDigit_of_mem_toDigits (by decide) (by decide) digit

theorem significand_numeral (negative : Bool) (digits places : Nat) :
    (numeral negative digits places).significand = padded digits places :=
  List.take_append_drop _ _

theorem scale_numeral (negative : Bool) (digits places : Nat) :
    (numeral negative digits places).scale = -(places : Int) := by
  have length := places_lt_length_padded digits places
  change 0 - ((padded digits places).drop _).length = -(places : Int)
  rw [List.length_drop]
  omega

theorem bodySpelledBy_numeral (negative : Bool) (digits places : Nat) :
    (numeral negative digits places).BodySpelledBy (pointed places (Nat.toDigits 10 digits)) where
  whole c member := isDigit_of_mem_padded c (List.mem_of_mem_take member)
  fraction c member := isDigit_of_mem_padded c (List.mem_of_mem_drop member)
  nonempty := by
    rw [significand_numeral]
    exact List.ne_nil_of_length_pos (Nat.zero_lt_of_lt (places_lt_length_padded digits places))
  spelled := by
    refine ⟨[], .absent, ?_⟩
    rw [List.append_nil]
    rfl

/-- Zeros in front do not count, and there are not so many digits that one of them is left out. -/
theorem magnitude_numeral (negative : Bool) {digits : Nat} (places : Nat) (pos : 0 < digits)
    (few : digits < 10 ^ Numeral.decisiveDigits) :
    (numeral negative digits places).magnitude = ⟨digits, -(places : Int)⟩ := by
  have length : (Nat.toDigits 10 digits).length ≤ Numeral.decisiveDigits :=
    (Nat.length_toDigits_le_iff (by decide) (by decide)).2 few
  have decisive : (numeral negative digits places).significand.dropWhile (· = '0') =
      Nat.toDigits 10 digits := by
    rw [significand_numeral]
    exact dropWhile_zeros _ pos
  have value : Numeral.valueOfDigits (Nat.toDigits 10 digits) = digits :=
    Nat.ofDigitChars_ten_toDigits
  simp only [Numeral.magnitude, decisive, List.take_of_length_le length,
    List.drop_of_length_le length, scale_numeral, value]
  rw [if_pos List.all_nil, List.length_nil, Nat.cast_zero, Int.add_zero]

end Decimal

end ScriptHost
