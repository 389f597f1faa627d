import Mathlib.Algebra.Order.Field.Power
import Mathlib.Data.Rat.Floor

/-!
Rounding of quotients to binary64. While it is shifted, a mantissa keeps two residual bits: the next
bit of the number that it stands for, and whether there is anything after that bit. This is enough
to find the nearest number of the format in the end.
-/

namespace ScriptHost

namespace Binary64

open Float.Model (Format UnpackedFloat totalExponent)
open Float.Model.UnpackedFloat

/-! ### Mantissas and exponents -/

/-- The mantissa and the exponent of a finite number other than zero: 53 bits, or fewer at the
least exponent. -/
structure Canonical (m : Nat) (e : Int) : Prop where
  pos : 0 < m
  upper : m < 2 ^ 53
  least : -1074 ≤ e
  greatest : e ≤ 971
  normal : 2 ^ 52 ≤ m ∨ e = -1074

theorem targetExponent_eq (m : Nat) (e : Int) :
    Format.binary64.targetExponent (totalExponent m e) = max (m.log2 + e - 52) (-1074) := by
  have bits : Format.binary64.mantissaBits = 53 := rfl
  simp only [Format.targetExponent, totalExponent, bits, Format.minExponent]
  omega

theorem log2_eq {m : Nat} (lower : 2 ^ 52 ≤ m) (upper : m < 2 ^ 53) : m.log2 = 52 :=
  (Nat.log2_eq_iff (by omega)).2 ⟨lower, upper⟩

/-! ### Residual bits -/

/-- The worth of a round bit. -/
def half (bit : Bool) : ℚ :=
  if bit then 1 / 2 else 0

@[simp]
theorem half_false : half false = 0 :=
  rfl

@[simp]
theorem half_true : half true = 1 / 2 :=
  rfl

theorem half_bounds (bit : Bool) : 0 ≤ half bit ∧ half bit ≤ 1 / 2 := by
  cases bit <;> norm_num

theorem half_eq_zero_iff {bit : Bool} : half bit = 0 ↔ bit = false := by
  cases bit <;> norm_num

theorem half_lastBit (n : Nat) : half (n % 2 != 0) = (n % 2 : Nat) / 2 := by
  rcases Nat.mod_two_eq_zero_or_one n with last | last <;> norm_num [half, last]

/-- What a mantissa with its residual bits stands for. The rest after the round bit is less than
half a unit, and the sticky bit tells whether there is any. -/
def Represents (em : ExtendedMantissa) (x : ℚ) : Prop :=
  ∃ rest : ℚ, 0 ≤ rest ∧ rest < 1 / 2 ∧ (em.stickyBit = false ↔ rest = 0) ∧
    x = em.mantissa + half em.roundBit + rest

variable {em : ExtendedMantissa} {x : ℚ}

theorem Represents.mantissa_le (represents : Represents em x) : (em.mantissa : ℚ) ≤ x := by
  obtain ⟨rest, nonneg, _, _, rfl⟩ := represents
  have bit := half_bounds em.roundBit
  linarith

theorem Represents.lt_mantissa_add_one (represents : Represents em x) : x < em.mantissa + 1 := by
  obtain ⟨rest, _, small, _, rfl⟩ := represents
  have bit := half_bounds em.roundBit
  linarith

/-- Halving moves the last bit of the mantissa to the round bit, and what was there to the rest. -/
theorem Represents.shiftRightOne (represents : Represents em x) :
    Represents em.shiftRightOne (x / 2) := by
  obtain ⟨rest, nonneg, small, sticky, rfl⟩ := represents
  have bit := half_bounds em.roundBit
  refine ⟨(half em.roundBit + rest) / 2, by linarith, by linarith, ?_, ?_⟩
  · calc em.shiftRightOne.stickyBit = false
      _ ↔ em.roundBit = false ∧ em.stickyBit = false := Bool.or_eq_false_iff
      _ ↔ half em.roundBit = 0 ∧ rest = 0 := by rw [half_eq_zero_iff, sticky]
      _ ↔ (half em.roundBit + rest) / 2 = 0 := by
        rw [div_eq_zero_iff, add_eq_zero_iff_of_nonneg bit.1 nonneg]
        norm_num
  · have halves : (em.mantissa : ℚ) = 2 * (em.mantissa / 2 : Nat) + (em.mantissa % 2 : Nat) := by
      exact_mod_cast (Nat.div_add_mod em.mantissa 2).symm
    rw [ExtendedMantissa.shiftRightOne, half_lastBit]
    linarith

theorem shiftRight_succ (em : ExtendedMantissa) (n : Nat) :
    em >>> (n + 1) = (em >>> n).shiftRightOne :=
  rfl

theorem Represents.shiftRight (represents : Represents em x) (n : Nat) :
    Represents (em >>> n) (x / 2 ^ n) := by
  induction n with
  | zero =>
    rw [pow_zero, div_one]
    exact represents
  | succ n ih =>
    rw [shiftRight_succ, pow_succ, ← div_div]
    exact ih.shiftRightOne

theorem mantissa_shiftRight (em : ExtendedMantissa) (n : Nat) :
    (em >>> n).mantissa = em.mantissa / 2 ^ n := by
  induction n with
  | zero => exact (Nat.div_one _).symm
  | succ n ih =>
    rw [shiftRight_succ, Nat.pow_succ, ← Nat.div_div_eq_div_mul, ← ih]
    rfl

theorem represents_exact (m : Nat) : Represents (.ofMantissaAndAccuracy m .exact) m :=
  ⟨0, le_rfl, by norm_num, by simp [ExtendedMantissa.ofMantissaAndAccuracy],
    by simp [ExtendedMantissa.ofMantissaAndAccuracy]⟩

/-- A quotient is represented by its whole part and by what the remainder tells about the rest. -/
theorem represents_quotient (a : Nat) {b : Nat} (pos : 0 < b) :
    Represents (.ofMantissaAndAccuracy (a / b) (accuracyOfFraction (a % b) b)) (a / b) := by
  have positive : (0 : ℚ) < b := by exact_mod_cast pos
  have split : (a : ℚ) / b = (a / b : Nat) + (a % b : Nat) / (b : ℚ) := by
    field_simp
    exact_mod_cast (Nat.div_add_mod a b).symm
  have proper : ((a % b : Nat) : ℚ) / b < 1 := by
    rw [div_lt_one positive]
    exact_mod_cast Nat.mod_lt a pos
  have nonneg : (0 : ℚ) ≤ (a % b : Nat) / (b : ℚ) := by positivity
  rw [split, accuracyOfFraction]
  by_cases exact : a % b = 0
  · rw [if_pos exact, exact, Nat.cast_zero, zero_div, add_zero]
    exact represents_exact (a / b)
  have inexact : ((a % b : Nat) : ℚ) / b ≠ 0 := by
    exact div_ne_zero (by exact_mod_cast exact) positive.ne'
  rw [if_neg exact]
  rcases lt_trichotomy (2 * (a % b)) b with less | equal | greater
  · rw [Nat.compare_eq_lt.2 less]
    have small : ((a % b : Nat) : ℚ) / b < 1 / 2 := by
      rw [div_lt_div_iff₀ positive two_pos, one_mul, mul_comm]
      exact_mod_cast less
    exact ⟨_, nonneg, small, by simpa [ExtendedMantissa.ofMantissaAndAccuracy] using inexact,
      by simp [ExtendedMantissa.ofMantissaAndAccuracy]⟩
  · rw [Nat.compare_eq_eq.2 equal]
    have middle : ((a % b : Nat) : ℚ) / b = 1 / 2 := by
      rw [div_eq_div_iff positive.ne' two_ne_zero, one_mul, mul_comm]
      exact_mod_cast equal
    exact ⟨0, le_rfl, by norm_num, by simp [ExtendedMantissa.ofMantissaAndAccuracy],
      by rw [middle]; simp [ExtendedMantissa.ofMantissaAndAccuracy]⟩
  · rw [Nat.compare_eq_gt.2 greater]
    have large : 1 / 2 < ((a % b : Nat) : ℚ) / b := by
      rw [div_lt_div_iff₀ two_pos positive, one_mul, mul_comm]
      exact_mod_cast greater
    refine ⟨(a % b : Nat) / b - 1 / 2, by linarith, by linarith, ?_, ?_⟩
    · simpa [ExtendedMantissa.ofMantissaAndAccuracy, sub_eq_zero] using large.ne'
    · simp [ExtendedMantissa.ofMantissaAndAccuracy]

/-! ### The nearest mantissa -/

/-- A whole number nearest to `x`, the even one of two. -/
structure Nearest (x : ℚ) (m : Nat) : Prop where
  lower : m - 1 / 2 ≤ x
  upper : x ≤ m + 1 / 2
  strict : m % 2 = 1 → m - 1 / 2 < x ∧ x < m + 1 / 2

theorem roundedMantissa_eq {m : Nat} (represents : Represents em x) (nearest : Nearest x m) :
    em.roundedMantissa = m := by
  obtain ⟨n, roundBit, stickyBit⟩ := em
  obtain ⟨rest, nonneg, small, sticky, rfl⟩ := represents
  obtain ⟨lower, upper, strict⟩ := nearest
  dsimp only at sticky lower upper strict
  have apart (a b : Nat) (less : (a : ℚ) < b + 1) : a ≤ b :=
    Nat.lt_succ_iff.1 (by exact_mod_cast less)
  cases stickyBit with
  | false =>
    obtain rfl : rest = 0 := sticky.1 rfl
    cases roundBit with
    | false =>
      rw [half_false] at lower upper
      change n = m
      exact Nat.le_antisymm (apart _ _ (by linarith)) (apart _ _ (by linarith))
    | true =>
      -- The number lies in the middle, and only the even neighbour is allowed there.
      rw [half_true] at lower upper strict
      have below : n ≤ m := apart _ _ (by linarith)
      have above : m ≤ n + 1 := apart _ _ (by push_cast; linarith)
      have even : m % 2 = 0 := by
        by_contra odd
        obtain ⟨left, right⟩ := strict (Nat.mod_two_ne_zero.1 odd)
        have : n < m := by exact_mod_cast (by linarith : (n : ℚ) < m)
        have : m < n + 1 := by exact_mod_cast (by linarith : (m : ℚ) < n + 1)
        omega
      change n + n % 2 = m
      omega
  | true =>
    have inexact : 0 < rest := lt_of_le_of_ne nonneg fun exact =>
      Bool.true_eq_false_eq_False (sticky.2 exact.symm)
    cases roundBit with
    | false =>
      rw [half_false] at lower upper
      change n = m
      exact Nat.le_antisymm (apart _ _ (by linarith)) (apart _ _ (by linarith))
    | true =>
      rw [half_true] at lower upper
      change n + 1 = m
      exact Nat.le_antisymm (apart _ _ (by push_cast; linarith))
        (apart _ _ (by push_cast; linarith))

/-! ### Rounding to the format -/

/-- How far the numbers that are rounded to `m * 2 ^ e` reach below it, in units of the mantissa.
The neighbour below a power of two is only half as far away, except at the least exponent. -/
def reachBelow (m : Nat) (e : Int) : ℚ :=
  if m = 2 ^ 52 ∧ -1074 < e then 1 / 4 else 1 / 2

/-- The numbers that are rounded to `m * 2 ^ e`: those between the middles to both neighbours,
which belong to the even mantissa. -/
structure RoundsTo (v : ℚ) (m : Nat) (e : Int) : Prop where
  lower : (m - reachBelow m e) * 2 ^ e ≤ v
  upper : v ≤ (m + 1 / 2) * 2 ^ e
  strict : m % 2 = 1 → (m - reachBelow m e) * 2 ^ e < v ∧ v < (m + 1 / 2) * 2 ^ e

variable {m : Nat} {e : Int}

theorem reachBelow_le : reachBelow m e ≤ 1 / 2 := by
  unfold reachBelow
  split <;> norm_num

/-- At its own exponent, the mantissa is the nearest whole number. -/
theorem RoundsTo.nearest (rounds : RoundsTo (x * 2 ^ e) m e) : Nearest x m := by
  have unit : (0 : ℚ) < 2 ^ e := by positivity
  have lower := le_of_mul_le_mul_right rounds.lower unit
  have reach := reachBelow_le (m := m) (e := e)
  refine ⟨by linarith, le_of_mul_le_mul_right rounds.upper unit, fun odd => ?_⟩
  obtain ⟨left, right⟩ := rounds.strict odd
  have left := lt_of_mul_lt_mul_right left unit.le
  exact ⟨by linarith, lt_of_mul_lt_mul_right right unit.le⟩

theorem two_zpow_le_half {d e : Int} (less : d < e) : (2 : ℚ) ^ d ≤ 2 ^ e / 2 := by
  calc (2 : ℚ) ^ d
    _ ≤ 2 ^ (e - 1) := zpow_le_zpow_right₀ one_le_two (by omega)
    _ = 2 ^ e / 2 := zpow_sub_one₀ two_ne_zero e

/-- A number with 53 bits, or with fewer at the least exponent, that is rounded to `m * 2 ^ e` has
that exponent already, or lies just below a power of two. -/
theorem RoundsTo.exponent_cases {d : Int} (rounds : RoundsTo (x * 2 ^ d) m e)
    (canonical : Canonical m e) (least : -1074 ≤ d) (upper : x < 2 ^ 53)
    (normal : d = -1074 ∨ 2 ^ 52 ≤ x) : d = e ∨ (m = 2 ^ 52 ∧ -1074 < e ∧ d = e - 1) := by
  have unit : (0 : ℚ) < 2 ^ e := by positivity
  rcases lt_trichotomy d e with below | same | above
  · right
    have full : 2 ^ 52 ≤ m := canonical.normal.resolve_right (by omega)
    have small : m - reachBelow m e < 2 ^ 52 := by
      refine lt_of_mul_lt_mul_right ?_ unit.le
      calc (m - reachBelow m e) * 2 ^ e
        _ ≤ x * 2 ^ d := rounds.lower
        _ < 2 ^ 53 * 2 ^ d := mul_lt_mul_of_pos_right upper (by positivity)
        _ ≤ 2 ^ 53 * (2 ^ e / 2) := mul_le_mul_of_nonneg_left (two_zpow_le_half below) (by norm_num)
        _ = 2 ^ 52 * 2 ^ e := by ring
    have least : m = 2 ^ 52 := by
      have reach := reachBelow_le (m := m) (e := e)
      have : (m : ℚ) < 2 ^ 52 + 1 := by linarith
      have : m < 2 ^ 52 + 1 := by exact_mod_cast this
      omega
    refine ⟨least, by omega, ?_⟩
    by_contra apart
    have tiny : (m : ℚ) - reachBelow m e < 2 ^ 51 := by
      refine lt_of_mul_lt_mul_right ?_ unit.le
      calc (m - reachBelow m e) * 2 ^ e
        _ ≤ x * 2 ^ d := rounds.lower
        _ < 2 ^ 53 * 2 ^ d := mul_lt_mul_of_pos_right upper (by positivity)
        _ ≤ 2 ^ 53 * (2 ^ (e - 1) / 2) :=
          mul_le_mul_of_nonneg_left (two_zpow_le_half (by omega)) (by norm_num)
        _ = 2 ^ 51 * 2 ^ e := by rw [zpow_sub_one₀ two_ne_zero]; ring
    have reach := reachBelow_le (m := m) (e := e)
    rw [least] at tiny reach
    norm_num at tiny
    linarith
  · exact .inl same
  · have least := canonical.least
    have large : (2 : ℚ) ^ 53 ≤ m + 1 / 2 := by
      refine le_of_mul_le_mul_right ?_ unit
      calc (2 : ℚ) ^ 53 * 2 ^ e
        _ = 2 ^ 52 * (2 * 2 ^ e) := by ring
        _ ≤ 2 ^ 52 * 2 ^ d := by
          have := two_zpow_le_half above
          exact mul_le_mul_of_nonneg_left (by linarith) (by norm_num)
        _ ≤ x * 2 ^ d :=
          mul_le_mul_of_nonneg_right (normal.resolve_left (by omega)) (by positivity)
        _ ≤ (m + 1 / 2) * 2 ^ e := rounds.upper
    have : (m : ℚ) + 1 ≤ 2 ^ 53 := by exact_mod_cast canonical.upper
    linarith

/-- Just below a power of two, the nearest whole number is the one that has a bit too many. -/
theorem RoundsTo.nearest_below (rounds : RoundsTo (x * 2 ^ (e - 1)) (2 ^ 52) e)
    (upper : x < 2 ^ 53) (high : -1074 < e) : Nearest x (2 ^ 53) := by
  have unit : (0 : ℚ) < 2 ^ (e - 1) := by positivity
  have double : (2 : ℚ) ^ e = 2 * 2 ^ (e - 1) := by
    rw [zpow_sub_one₀ two_ne_zero]; ring
  have lower : (2 : ℚ) ^ 53 - 1 / 2 ≤ x := by
    refine le_of_mul_le_mul_right ?_ unit
    calc (2 ^ 53 - 1 / 2) * (2 : ℚ) ^ (e - 1)
      _ = ((2 ^ 52 : Nat) - reachBelow (2 ^ 52) e) * 2 ^ e := by
        rw [reachBelow, if_pos ⟨rfl, high⟩, double]; push_cast; ring
      _ ≤ x * 2 ^ (e - 1) := rounds.lower
  exact ⟨by push_cast; exact lower, by push_cast; linarith, fun odd => absurd odd (by decide)⟩

/-! ### The rounding steps -/

/-- A shift to the target exponent drops the bits after the first 53 of a mantissa that has as many,
or has the least exponent. -/
theorem shiftToTargetExponent_eq {q : Nat} {d : Int} {acc : Accuracy} (least : -1074 ≤ d)
    (enough : d = -1074 ∨ 2 ^ 52 ≤ q) :
    shiftToTargetExponent Format.binary64 q d acc =
      (ExtendedMantissa.ofMantissaAndAccuracy q acc >>> (q.log2 - 52),
        d + (q.log2 - 52 : Nat)) := by
  have log : d = -1074 ∨ 52 ≤ q.log2 :=
    enough.imp_right fun enough => (Nat.le_log2 (by omega)).2 enough
  have shift : (max (q.log2 + d - 52) (-1074) - d).toNat = q.log2 - 52 := by omega
  simp only [shiftToTargetExponent, shiftToExponent, targetExponent_eq, shift]

/-- What is left of a mantissa after the shift has 53 bits, or as many as before. -/
theorem shifted_bounds (q : Nat) :
    q / 2 ^ (q.log2 - 52) < 2 ^ 53 ∧ (2 ^ 52 ≤ q → 2 ^ 52 ≤ q / 2 ^ (q.log2 - 52)) := by
  constructor
  · rw [Nat.div_lt_iff_lt_mul (Nat.two_pow_pos _), ← Nat.pow_add]
    calc q
      _ < 2 ^ (q.log2 + 1) := Nat.lt_log2_self
      _ ≤ 2 ^ (53 + (q.log2 - 52)) := Nat.pow_le_pow_right two_pos (by omega)
  · intro enough
    have bits : 52 ≤ q.log2 := (Nat.le_log2 (by omega)).2 enough
    rw [Nat.le_div_iff_mul_le (Nat.two_pow_pos _), ← Nat.pow_add]
    calc 2 ^ (52 + (q.log2 - 52))
      _ = 2 ^ q.log2 := by rw [Nat.add_sub_cancel' bits]
      _ ≤ q := Nat.log2_self_le (by omega)

theorem shiftToTargetExponent_canonical (canonical : Canonical m e) :
    shiftToTargetExponent Format.binary64 m e .exact = (⟨m, false, false⟩, e) := by
  have log : m.log2 < 53 := (Nat.log2_lt canonical.pos.ne').2 canonical.upper
  have fits : m.log2 - 52 = 0 := by omega
  rw [shiftToTargetExponent_eq canonical.least canonical.normal.symm, fits]
  exact Prod.ext rfl (Int.add_zero e)

theorem shiftToTargetExponent_carried (least : -1074 ≤ e) :
    shiftToTargetExponent Format.binary64 (2 ^ 53) e .exact = (⟨2 ^ 52, false, false⟩, e + 1) := by
  rw [shiftToTargetExponent_eq least (.inr (by decide)), Nat.log2_two_pow]
  rfl

/-- The second shift takes back the bit that the nearest whole number may have too many. -/
theorem shiftToTargetExponent_rounded {d : Int} (represents : Represents em x) (least : -1074 ≤ d)
    (upper : em.mantissa < 2 ^ 53) (normal : d = -1074 ∨ 2 ^ 52 ≤ em.mantissa)
    (canonical : Canonical m e) (rounds : RoundsTo (x * 2 ^ d) m e) :
    shiftToTargetExponent Format.binary64 em.roundedMantissa d .exact =
      (⟨m, false, false⟩, e) := by
  have below : x < 2 ^ 53 := by
    have whole : (em.mantissa : ℚ) + 1 ≤ 2 ^ 53 := by exact_mod_cast upper
    exact represents.lt_mantissa_add_one.trans_le whole
  have enough : d = -1074 ∨ 2 ^ 52 ≤ x :=
    normal.imp_right fun full => le_trans (by exact_mod_cast full) represents.mantissa_le
  rcases rounds.exponent_cases canonical least below enough with rfl | ⟨rfl, high, rfl⟩
  · rw [roundedMantissa_eq represents rounds.nearest, shiftToTargetExponent_canonical canonical]
  · rw [roundedMantissa_eq represents (rounds.nearest_below below high),
      shiftToTargetExponent_carried least, Int.sub_add_cancel]

/-- Rounding finds the number of the format in whose rounding interval the given number lies, if the
mantissa has enough bits. -/
theorem roundWithAccuracy_eq {sign : Sign} {q : Nat} {d : Int} {acc : Accuracy}
    (represents : Represents (.ofMantissaAndAccuracy q acc) x) (least : -1074 ≤ d)
    (enough : d = -1074 ∨ 2 ^ 52 ≤ q) (canonical : Canonical m e)
    (rounds : RoundsTo (x * 2 ^ d) m e) :
    roundWithAccuracy Format.binary64 sign q d acc = .finite sign m e canonical.pos := by
  obtain ⟨upper, lower⟩ := shifted_bounds q
  have mantissa : (ExtendedMantissa.ofMantissaAndAccuracy q acc >>> (q.log2 - 52)).mantissa =
      q / 2 ^ (q.log2 - 52) := by
    rw [mantissa_shiftRight]
    rcases acc with _ | _ | _ | _ <;> rfl
  have value : x * 2 ^ d = x / 2 ^ (q.log2 - 52) * 2 ^ (d + (q.log2 - 52 : Nat)) := by
    rw [zpow_add₀ two_ne_zero, zpow_natCast]
    field_simp
  have normal : d + (q.log2 - 52 : Nat) = -1074 ∨ 2 ^ 52 ≤ q / 2 ^ (q.log2 - 52) := by
    by_cases full : 2 ^ 52 ≤ q
    · exact .inr (lower full)
    · have log : q.log2 ≤ 52 := by
        by_contra more
        have nonzero : q ≠ 0 := by rintro rfl; exact more (by decide)
        exact full ((Nat.le_log2 nonzero).1 (by omega))
      have := enough.resolve_right full
      omega
  rw [value] at rounds
  rw [← mantissa] at upper normal
  have second := shiftToTargetExponent_rounded (represents.shiftRight _) (by omega) upper normal
    canonical rounds
  unfold roundWithAccuracy
  rw [shiftToTargetExponent_eq least enough]
  dsimp only
  rw [second]
  exact dif_neg canonical.pos.ne'

/-! ### Quotients -/

/-- How many bits the dividend gets before it is divided. -/
def dividendShift (a b : Nat) : Nat :=
  (-min 0 (max ((a.log2 : Int) - b.log2 - 53) (-1074))).toNat

theorem divCore_eq (a b : Nat) :
    divCore Format.binary64 a 0 b 0 =
      (a * 2 ^ dividendShift a b / b, -(dividendShift a b : Int),
        accuracyOfFraction (a * 2 ^ dividendShift a b % b) b) := by
  have target : min (0 - 0)
      (Format.binary64.targetExponent (totalExponent a 0 - totalExponent b 0)) =
        -(dividendShift a b : Int) := by
    have bits : Format.binary64.mantissaBits = 53 := rfl
    simp only [Format.targetExponent, totalExponent, bits, Format.minExponent, dividendShift]
    omega
  have shift : (0 - 0 - -(dividendShift a b : Int)).toNat = dividendShift a b := by omega
  simp only [divCore, target, shift, Nat.shiftLeft_eq]

/-- The quotient has enough bits, except at the least exponent. -/
theorem le_quotient {a b : Nat} (ha : 0 < a) (hb : 0 < b) (high : dividendShift a b ≠ 1074) :
    2 ^ 52 ≤ a * 2 ^ dividendShift a b / b := by
  have shift : b.log2 + 53 ≤ a.log2 + dividendShift a b := by
    unfold dividendShift at high ⊢
    omega
  rw [Nat.le_div_iff_mul_le hb]
  calc 2 ^ 52 * b
    _ ≤ 2 ^ 52 * 2 ^ (b.log2 + 1) := Nat.mul_le_mul_left _ Nat.lt_log2_self.le
    _ = 2 ^ (b.log2 + 53) := by rw [← Nat.pow_add]; congr 1; omega
    _ ≤ 2 ^ (a.log2 + dividendShift a b) := Nat.pow_le_pow_right two_pos shift
    _ = 2 ^ a.log2 * 2 ^ dividendShift a b := Nat.pow_add 2 _ _
    _ ≤ a * 2 ^ dividendShift a b := Nat.mul_le_mul_right _ (Nat.log2_self_le ha.ne')

/-- The quotient of two whole numbers is rounded correctly. -/
theorem div_eq {a b : Nat} (ha : 0 < a) (hb : 0 < b) (canonical : Canonical m e)
    (rounds : RoundsTo (a / b) m e) :
    div Format.binary64 (.finite .positive a 0 ha) (.finite .positive b 0 hb) =
      .finite .positive m e canonical.pos := by
  have least : dividendShift a b ≤ 1074 := by unfold dividendShift; omega
  have enough : -(dividendShift a b : Int) = -1074 ∨ 2 ^ 52 ≤ a * 2 ^ dividendShift a b / b := by
    by_cases high : dividendShift a b = 1074
    · exact .inl (by omega)
    · exact .inr (le_quotient ha hb high)
  have value : (a : ℚ) / b =
      (a * 2 ^ dividendShift a b : Nat) / b * 2 ^ (-(dividendShift a b : Int)) := by
    rw [zpow_neg, zpow_natCast]
    push_cast
    field_simp
  rw [value] at rounds
  change (let (q, d, acc) := divCore Format.binary64 a 0 b 0
    roundWithAccuracy Format.binary64 _ q d acc) = _
  rw [divCore_eq]
  exact roundWithAccuracy_eq (represents_quotient _ hb) (by omega) enough canonical rounds

/-- A decimal fraction is read as the number in whose rounding interval it lies. -/
theorem ofScientific_eq {digits places : Nat} (hd : 0 < digits) (fraction : 0 < places)
    (few : places ≤ 2048) (canonical : Canonical m e)
    (rounds : RoundsTo (digits / 10 ^ places) m e) :
    ofScientific Format.binary64 digits (-(places : Int)) =
      .finite .positive m e canonical.pos := by
  have notLarge : ¬-(places : Int) > 2 ^ Format.binary64.exponentBits := by
    change ¬-(places : Int) > 2048
    omega
  have notSmall : ¬-(places : Int) < -((2 ^ Format.binary64.exponentBits : Int) + digits.log2) := by
    change ¬-(places : Int) < -(2048 + (digits.log2 : Int))
    omega
  have power : (- -(places : Int)).toNat = places := by omega
  have quotient : RoundsTo (digits / (10 ^ (- -(places : Int)).toNat : Nat)) m e := by
    rw [power]
    simpa using rounds
  unfold ofScientific
  rw [dif_neg hd.ne', if_neg notLarge, if_neg notSmall, if_neg (by omega)]
  exact div_eq hd (Nat.pow_pos (by decide)) canonical quotient

end Binary64

end ScriptHost
