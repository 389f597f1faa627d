import Mathlib.Data.Rat.Floor
import Mathlib.Tactic.FieldSimp
import ScriptHost.Arithmetic

/-!
Arithmetic on integers against exact arithmetic. An operation gives the exact result or says that it
does not fit; a quotient is the rational one rounded toward zero, and with its remainder it gives
back the dividend without an overflow on the way.
-/

namespace ScriptHost

/-- A rational number without its fraction. -/
def towardZero (x : ℚ) : Int :=
  if 0 ≤ x then ⌊x⌋ else ⌈x⌉

theorem towardZero_eq_of_nonneg {x : ℚ} {n : Int} (nonneg : 0 ≤ x) (lower : n ≤ x)
    (upper : x < n + 1) : towardZero x = n := by
  rw [towardZero, if_pos nonneg]
  exact Int.floor_eq_iff.2 ⟨lower, upper⟩

theorem towardZero_eq_of_neg {x : ℚ} {n : Int} (negative : x < 0) (lower : n - 1 < x)
    (upper : x ≤ n) : towardZero x = n := by
  rw [towardZero, if_neg (not_le.2 negative)]
  exact Int.ceil_eq_iff.2 ⟨lower, upper⟩

/-! ### Quotients and remainders -/

section Division

variable {m n : Int}

theorem abs_tmod_lt (nonzero : n ≠ 0) : |m.tmod n| < |n| := by
  rw [Int.abs_eq_natAbs, Int.abs_eq_natAbs, Int.natAbs_tmod]
  exact_mod_cast Nat.mod_lt _ (Int.natAbs_pos.2 nonzero)

/-- A remainder lies between zero and the dividend. -/
theorem tmod_between : 0 ≤ m.tmod n ∧ m.tmod n ≤ m ∨ m ≤ m.tmod n ∧ m.tmod n ≤ 0 := by
  have size : (m.tmod n).natAbs ≤ m.natAbs := by
    rw [Int.natAbs_tmod]
    exact Nat.mod_le _ _
  rcases Int.le_total 0 m with nonneg | nonpos
  · have side := Int.tmod_nonneg n nonneg
    omega
  · have side := Int.tmod_nonneg n (Int.neg_nonneg_of_nonpos nonpos)
    rw [Int.neg_tmod] at side
    omega

theorem tmod_eq_zero_or_sign_eq : m.tmod n = 0 ∨ (m.tmod n).sign = m.sign := by
  rcases tmod_between (m := m) (n := n) with ⟨nonneg, le⟩ | ⟨le, nonpos⟩
  · rcases Int.lt_or_eq_of_le nonneg with pos | zero
    · rw [Int.sign_eq_one_of_pos pos, Int.sign_eq_one_of_pos (Int.lt_of_lt_of_le pos le)]
      exact .inr rfl
    · exact .inl zero.symm
  · rcases Int.lt_or_eq_of_le nonpos with neg | zero
    · rw [Int.sign_eq_neg_one_of_neg neg, Int.sign_eq_neg_one_of_neg (Int.lt_of_le_of_lt le neg)]
      exact .inr rfl
    · exact .inl zero

/-- The fraction that rounding leaves out is smaller than one and on the side of the quotient. -/
theorem towardZero_div (nonzero : n ≠ 0) : towardZero (m / n) = m.tdiv n := by
  have divisor : (n : ℚ) ≠ 0 := by exact_mod_cast nonzero
  have split : (m : ℚ) / n = m.tdiv n + m.tmod n / n := by
    have whole : (n : ℚ) * m.tdiv n + m.tmod n = m := by exact_mod_cast Int.mul_tdiv_add_tmod m n
    rw [← whole]
    field_simp
  have small : |(m.tmod n / n : ℚ)| < 1 := by
    rw [abs_div, div_lt_one (abs_pos.2 divisor)]
    exact_mod_cast abs_tmod_lt (m := m) nonzero
  have side : 0 ≤ (m / n : ℚ) * (m.tmod n / n) := by
    have sameSide : 0 ≤ m * m.tmod n := by
      rcases tmod_between (m := m) (n := n) with ⟨nonneg, le⟩ | ⟨le, nonpos⟩
      · exact Int.mul_nonneg (Int.le_trans nonneg le) nonneg
      · exact Int.mul_nonneg_of_nonpos_of_nonpos (Int.le_trans le nonpos) nonpos
    rw [div_mul_div_comm]
    exact div_nonneg (by exact_mod_cast sameSide) (mul_self_nonneg _)
  obtain ⟨lower, upper⟩ := abs_lt.1 small
  rcases lt_trichotomy (m / n : ℚ) 0 with neg | zero | pos
  · have fraction : (m.tmod n / n : ℚ) ≤ 0 := nonpos_of_mul_nonneg_right side neg
    exact towardZero_eq_of_neg neg (by linarith) (by linarith)
  · obtain rfl : m = 0 := by exact_mod_cast (div_eq_zero_iff.1 zero).resolve_right divisor
    simp [towardZero]
  · have fraction : 0 ≤ (m.tmod n / n : ℚ) := nonneg_of_mul_nonneg_right side pos
    exact towardZero_eq_of_nonneg pos.le (by linarith) (by linarith)

/-- Of the quotients of integers that fit, a single one does not fit. -/
theorem tdiv_fits_iff (nonzero : n ≠ 0) (lower : -2 ^ 63 ≤ m) (upper : m < 2 ^ 63) :
    -2 ^ 63 ≤ m.tdiv n ∧ m.tdiv n < 2 ^ 63 ↔ ¬(m = -2 ^ 63 ∧ n = -1) := by
  have size := Int.natAbs_tdiv_le_natAbs m n
  have whole := Int.mul_tdiv_add_tmod m n
  constructor
  · rintro fits ⟨rfl, rfl⟩
    rw [Int.tdiv_neg, Int.tdiv_one] at fits
    omega
  · intro other
    refine ⟨by omega, Int.lt_of_not_ge fun large => other ?_⟩
    -- The quotient is as large as the dividend then, which leaves one dividend and one divisor.
    have quotient : m.tdiv n = 2 ^ 63 := by omega
    have remainder := abs_tmod_lt (m := m) nonzero
    rw [quotient] at whole
    rw [Int.abs_eq_natAbs, Int.abs_eq_natAbs] at remainder
    omega

end Division

namespace Integer

variable {a b n : Integer}

theorem div?_eq_some_iff :
    a.div? b = some n ↔ b.val ≠ 0 ∧ n.val = a.val.tdiv b.val := by
  rw [div?, Option.ite_none_left_eq_some, ofInt?_eq_some_iff]

theorem div?_eq_none_iff :
    a.div? b = none ↔ b.val = 0 ∨ a.val = -2 ^ 63 ∧ b.val = -1 := by
  by_cases zero : b.val = 0
  · simp [div?, zero]
  · have fits := tdiv_fits_iff (m := a.val) zero a.lower a.upper
    rw [div?, if_neg zero, ofInt?_eq_none_iff, or_iff_right zero]
    omega

theorem rem?_eq_none_iff : a.rem? b = none ↔ a.div? b = none := by
  unfold rem?
  split
  next refused => exact iff_of_true rfl (Option.isNone_iff_eq_none.1 refused)
  next given =>
    refine iff_of_false (fun outside => ?_) (fun none => given (Option.isNone_iff_eq_none.2 none))
    have between := tmod_between (m := a.val) (n := b.val)
    have lower := a.lower
    have upper := a.upper
    rw [ofInt?_eq_none_iff] at outside
    omega

theorem rem?_eq_some_iff :
    a.rem? b = some n ↔ (∃ q, a.div? b = some q) ∧ n.val = a.val.tmod b.val := by
  rw [rem?, Option.ite_none_left_eq_some, ofInt?_eq_some_iff, Option.isNone_iff_eq_none,
    ← ne_eq, Option.ne_none_iff_exists']

end Integer

/-! ### Evaluation -/

/-- The exact result if it fits, and otherwise an overflow that names the operation. -/
structure ExactOrOverflow (operation : String) (exact : Int)
    (result : Except EvalError Value) : Prop where
  ok : -2 ^ 63 ≤ exact → exact ≤ 2 ^ 63 - 1 →
    ∃ n : Integer, n.val = exact ∧ result = .ok (.integer n)
  overflow : exact < -2 ^ 63 ∨ 2 ^ 63 - 1 < exact →
    result = .error { cause := .integerOverflow operation }

/-- The outcome of a division: it is refused for a zero divisor and for the one quotient that does
not fit, and otherwise it is an integer of a given kind. -/
structure DividesOrRefuses (a b : Integer) (zeroDivisor : EvalError.Cause) (operation : String)
    (IsResult : Int → Prop) (result : Except EvalError Value) : Prop where
  zero_iff : result = .error { cause := zeroDivisor } ↔ b.val = 0
  overflow_iff : result = .error { cause := .integerOverflow operation } ↔
    a.val = -2 ^ 63 ∧ b.val = -1
  ok : b.val ≠ 0 → ¬(a.val = -2 ^ 63 ∧ b.val = -1) →
    ∃ n : Integer, IsResult n.val ∧ result = .ok (.integer n)

section Evaluation

variable {a b q r : Integer} {zeroDivisor : EvalError.Cause} {operation : String}
  {IsResult : Int → Prop} {result : Except EvalError Value} {given : Option Integer}

theorem DividesOrRefuses.exists_ok_iff
    (divides : DividesOrRefuses a b zeroDivisor operation IsResult result) :
    (∃ v, result = .ok v) ↔ b.val ≠ 0 ∧ ¬(a.val = -2 ^ 63 ∧ b.val = -1) := by
  constructor
  · rintro ⟨v, rfl⟩
    refine ⟨fun zero => ?_, fun extreme => ?_⟩
    · cases divides.zero_iff.2 zero
    · cases divides.overflow_iff.2 extreme
  · rintro ⟨nonzero, other⟩
    obtain ⟨n, -, found⟩ := divides.ok nonzero other
    exact ⟨_, found⟩

namespace Arithmetic

theorem exactOrOverflow_checked (operation : String) (exact : Int) :
    ExactOrOverflow operation exact
      ((checked operation (Integer.ofInt? exact)).mapError fun cause => { cause }) := by
  constructor
  · intro lower upper
    have fits : Integer.ofInt? exact = some ⟨exact, lower, Int.lt_of_le_sub_one upper⟩ :=
      Integer.ofInt?_eq_some_iff.2 rfl
    rw [fits]
    exact ⟨_, rfl, rfl⟩
  · intro outside
    rw [Integer.ofInt?_eq_none_iff.2 (outside.imp_right Int.le_of_sub_one_lt)]
    rfl

theorem dividesOrRefuses_checked (differ : zeroDivisor ≠ .integerOverflow operation)
    (none_iff : given = none ↔ b.val = 0 ∨ a.val = -2 ^ 63 ∧ b.val = -1)
    (some : ∀ n ∈ given, IsResult n.val) :
    DividesOrRefuses a b zeroDivisor operation IsResult
      ((if b.val = 0 then .error zeroDivisor else checked operation given).mapError
        fun cause => { cause }) := by
  by_cases zero : b.val = 0
  · rw [if_pos zero]
    refine ⟨iff_of_true rfl zero, iff_of_false (fun same => ?_) (fun extreme => ?_), absurd zero⟩
    · exact differ (congrArg EvalError.cause (Except.error.inj same))
    · omega
  rw [if_neg zero]
  cases given with
  | none =>
    have extreme := (none_iff.1 rfl).resolve_left zero
    refine ⟨iff_of_false (fun same => ?_) zero, iff_of_true rfl extreme, fun _ other => ?_⟩
    · exact differ (congrArg EvalError.cause (Except.error.inj same)).symm
    · exact absurd extreme other
  | some n =>
    have other : ¬(a.val = -2 ^ 63 ∧ b.val = -1) := fun extreme => by
      cases none_iff.2 (.inr extreme)
    refine ⟨iff_of_false (fun same => ?_) zero, iff_of_false (fun same => ?_) other, fun _ _ => ?_⟩
    · cases same
    · cases same
    · exact ⟨n, some n rfl, rfl⟩

theorem dividesOrRefuses_div (a b : Integer) :
    DividesOrRefuses a b .divisionByZero "division" (· = towardZero ((a.val : ℚ) / b.val))
      (Value.binary .div (.integer a) (.integer b)) := by
  refine dividesOrRefuses_checked (by decide) Integer.div?_eq_none_iff fun q quotient => ?_
  obtain ⟨nonzero, value⟩ := Integer.div?_eq_some_iff.1 quotient
  rw [value, towardZero_div nonzero]

theorem dividesOrRefuses_mod (a b : Integer) :
    DividesOrRefuses a b .moduloByZero "remainder"
      (fun r => |r| < |b.val| ∧ (r = 0 ∨ r.sign = a.val.sign))
      (Value.binary .mod (.integer a) (.integer b)) := by
  refine dividesOrRefuses_checked (by decide)
    (Integer.rem?_eq_none_iff.trans Integer.div?_eq_none_iff) fun r remainder => ?_
  obtain ⟨⟨q, quotient⟩, value⟩ := Integer.rem?_eq_some_iff.1 remainder
  rw [value]
  exact ⟨abs_tmod_lt (Integer.div?_eq_some_iff.1 quotient).1, tmod_eq_zero_or_sign_eq⟩

theorem eq_some_of_checked_eq_ok
    (ends : (if b.val = 0 then .error zeroDivisor else checked operation given).mapError
      (fun cause => ({ cause } : EvalError)) = .ok (.integer q)) : given = some q := by
  split at ends
  next => cases ends
  next =>
    cases given with
    | none => cases ends
    | some n => cases ends; rfl

/-- The dividend is put together again, and the product on the way lies between zero and it. -/
theorem recombine (quotient : q.val = a.val.tdiv b.val) (remainder : r.val = a.val.tmod b.val) :
    ∃ p, Value.binary .mul (.integer q) (.integer b) = .ok (.integer p) ∧
      Value.binary .add (.integer p) (.integer r) = .ok (.integer a) := by
  have whole : q.val * b.val + r.val = a.val := by
    rw [quotient, remainder, Int.mul_comm]
    exact Int.mul_tdiv_add_tmod a.val b.val
  have between := tmod_between (m := a.val) (n := b.val)
  rw [← remainder] at between
  have lower := a.lower
  have upper := a.upper
  obtain ⟨p, product, multiplied⟩ :=
    (exactOrOverflow_checked "multiplication" (q.val * b.val)).ok (by omega) (by omega)
  obtain ⟨n, sum, added⟩ :=
    (exactOrOverflow_checked "addition" (p.val + r.val)).ok (by omega) (by omega)
  obtain rfl : n = a := Integer.ext (by omega)
  exact ⟨p, multiplied, added⟩

end Arithmetic

end Evaluation

/-- Arithmetic on two integers is exact or refused. Sums, differences and products are exact where
they fit and an overflow elsewhere; a quotient is rounded toward zero, and a remainder is smaller
than the divisor and has the sign of the dividend. There is a remainder where there is a quotient,
and the two give the dividend back. -/
theorem binary_integers_exact (a b : Integer) :
    let eval (op : BinaryOp) (m n : Integer) := Value.binary op (.integer m) (.integer n)
    ExactOrOverflow "addition" (a.val + b.val) (eval .add a b) ∧
    ExactOrOverflow "subtraction" (a.val - b.val) (eval .sub a b) ∧
    ExactOrOverflow "multiplication" (a.val * b.val) (eval .mul a b) ∧
    DividesOrRefuses a b .divisionByZero "division" (· = towardZero ((a.val : ℚ) / b.val))
      (eval .div a b) ∧
    DividesOrRefuses a b .moduloByZero "remainder"
      (fun r => |r| < |b.val| ∧ (r = 0 ∨ r.sign = a.val.sign)) (eval .mod a b) ∧
    ((∃ v, eval .div a b = .ok v) ↔ ∃ v, eval .mod a b = .ok v) ∧
    ∀ q r, eval .div a b = .ok (.integer q) → eval .mod a b = .ok (.integer r) →
      ∃ p, eval .mul q b = .ok (.integer p) ∧ eval .add p r = .ok (.integer a) := by
  intro eval
  have quotients := Arithmetic.dividesOrRefuses_div a b
  have remainders := Arithmetic.dividesOrRefuses_mod a b
  refine ⟨Arithmetic.exactOrOverflow_checked .., Arithmetic.exactOrOverflow_checked ..,
    Arithmetic.exactOrOverflow_checked .., quotients, remainders,
    quotients.exists_ok_iff.trans remainders.exists_ok_iff.symm, fun q r divided left => ?_⟩
  have quotient : a.div? b = some q := Arithmetic.eq_some_of_checked_eq_ok divided
  have remainder : a.rem? b = some r := Arithmetic.eq_some_of_checked_eq_ok left
  exact Arithmetic.recombine (Integer.div?_eq_some_iff.1 quotient).2
    (Integer.rem?_eq_some_iff.1 remainder).2

/-- The least integer divided by 3 and put together again. -/
theorem binary_integers_exact_least :
    let eval (op : BinaryOp) (m n : Integer) := Value.binary op (.integer m) (.integer n)
    let least : Integer := { val := -0x8000000000000000 }
    let quotient : Integer := { val := -0x2AAAAAAAAAAAAAAA }
    eval .div least { val := 3 } = .ok (.integer quotient) ∧
      eval .mod least { val := 3 } = .ok (.integer { val := -2 }) ∧
      ∃ p, eval .mul quotient { val := 3 } = .ok (.integer p) ∧
        eval .add p { val := -2 } = .ok (.integer least) := by
  intro eval least quotient
  obtain ⟨_, _, _, _, _, _, recombines⟩ := binary_integers_exact least { val := 3 }
  exact ⟨rfl, rfl, recombines quotient { val := -2 } rfl rfl⟩

end ScriptHost
