import ScriptHost.Decimal.Shortest
import ScriptHost.Proofs.Float.Rounding

/-!
The shortest decimal of a binary64 number lies in the rounding interval of the number. The search
goes through finer and finer grids, and it ends on one that has the number itself as a point.
-/

namespace ScriptHost

/-- The number that a decimal denotes. -/
def Decimal.value (d : Decimal) : ℚ :=
  d.digits * 10 ^ d.exponent

/-- A power of any base, split into a multiple and a quotient of which one is 1. -/
theorem zpow_eq_toNat_div {base : ℚ} (nonzero : base ≠ 0) (n : Int) :
    base ^ n = base ^ n.toNat / base ^ (-n).toNat := by
  rw [← zpow_natCast, ← zpow_natCast, ← zpow_sub₀ nonzero]
  congr 1
  omega

namespace RoundingInterval

variable {m : Nat} {e : Int}

/-- Multiplied out, the comparison of a decimal with quarters of units of the mantissa is one of
natural numbers. -/
theorem quarters_le_iff (quarters : Nat) (d : Decimal) :
    quarters * Nat.pow 2 e.toNat * Nat.pow 10 (-d.exponent).toNat ≤
      d.digits * Nat.pow 10 d.exponent.toNat * (4 * Nat.pow 2 (-e).toNat) ↔
        (quarters / 4 : ℚ) * 2 ^ e ≤ d.value := by
  simp only [Nat.pow_eq]
  rw [Decimal.value, zpow_eq_toNat_div two_ne_zero, zpow_eq_toNat_div (by norm_num),
    ← Nat.cast_le (α := ℚ)]
  push_cast
  field_simp

theorem le_quarters_iff (quarters : Nat) (d : Decimal) :
    d.digits * Nat.pow 10 d.exponent.toNat * (4 * Nat.pow 2 (-e).toNat) ≤
      quarters * Nat.pow 2 e.toNat * Nat.pow 10 (-d.exponent).toNat ↔
        d.value ≤ (quarters / 4 : ℚ) * 2 ^ e := by
  simp only [Nat.pow_eq]
  rw [Decimal.value, zpow_eq_toNat_div two_ne_zero, zpow_eq_toNat_div (by norm_num),
    ← Nat.cast_le (α := ℚ)]
  push_cast
  field_simp

/-- How far the interval reaches below the mantissa, in quarters of its units. -/
def gapBelow (m : Nat) (e : Int) : Nat :=
  if m = 0x10000000000000 ∧ -1074 < e then 1 else 2

theorem cast_sub_gapBelow (pos : 0 < m) :
    ((4 * m - gapBelow m e : Nat) : ℚ) / 4 = m - Binary64.reachBelow m e := by
  by_cases power : m = 2 ^ 52 ∧ -1074 < e
  · have gap : gapBelow m e = 1 := if_pos power
    rw [gap, Binary64.reachBelow, if_pos power, Nat.cast_sub (by omega)]
    push_cast
    ring
  · have gap : gapBelow m e = 2 := if_neg power
    rw [gap, Binary64.reachBelow, if_neg power, Nat.cast_sub (by omega)]
    push_cast
    ring

/-- What lies in the interval of a number is rounded to it. -/
theorem roundsTo_of_contains {d : Decimal} (pos : 0 < m) (inside : (ofDyadic m e).contains d) :
    Binary64.RoundsTo d.value m e := by
  have high : ((4 * m + 2 : Nat) : ℚ) / 4 = m + 1 / 2 := by push_cast; ring
  have lower := quarters_le_iff (e := e) (4 * m - gapBelow m e) d
  have upper := le_quarters_iff (e := e) (4 * m + 2) d
  have notLower := le_quarters_iff (e := e) (4 * m - gapBelow m e) d
  have notUpper := quarters_le_iff (e := e) (4 * m + 2) d
  rw [cast_sub_gapBelow pos] at lower notLower
  rw [high] at upper notUpper
  unfold contains at inside
  dsimp only at inside
  split at inside
  next even =>
    obtain ⟨left, right⟩ := (Bool.and_eq_true _ _).mp inside
    have even : m % 2 = 0 := of_decide_eq_true even
    exact ⟨lower.1 (of_decide_eq_true left), upper.1 (of_decide_eq_true right),
      fun odd => by omega⟩
  next =>
    obtain ⟨left, right⟩ := (Bool.and_eq_true _ _).mp inside
    have left := lt_of_not_ge fun le => (of_decide_eq_true left).not_ge (notLower.2 le)
    have right := lt_of_not_ge fun le => (of_decide_eq_true right).not_ge (notUpper.2 le)
    exact ⟨left.le, right.le, fun _ => ⟨left, right⟩⟩

theorem nearest?_spec {i : RoundingInterval} {exponent : Int} {hit : Decimal}
    (found : i.nearest? exponent = some hit) : i.contains hit ∧ hit.exponent = exponent := by
  unfold nearest? at found
  dsimp only at found
  split at found
  next => cases found
  next below _ =>
    obtain rfl := Option.some.inj found
    exact ⟨below, rfl⟩
  next _ above =>
    obtain rfl := Option.some.inj found
    exact ⟨above, rfl⟩
  next below above =>
    obtain rfl := Option.some.inj found
    split
    · exact ⟨above, rfl⟩
    · exact ⟨below, rfl⟩

/-- The search ends in the interval if the last grid has the number as a point. -/
theorem coarsest_spec {i : RoundingInterval} {last : Int}
    (exact : ∀ exponent ≤ last, i.contains (i.floor exponent)) :
    ∀ (finer : Nat) (top : Int), top - finer ≤ last →
      i.contains (i.coarsest top finer) ∧ top - finer ≤ (i.coarsest top finer).exponent := by
  intro finer
  induction finer with
  | zero =>
    intro top enough
    exact ⟨exact top (by omega), by simp [coarsest, floor]⟩
  | succ finer ih =>
    intro top enough
    unfold coarsest
    split
    next hit found =>
      obtain ⟨inside, rfl⟩ := nearest?_spec found
      exact ⟨inside, by omega⟩
    next =>
      obtain ⟨inside, bound⟩ := ih (top - 1) (by omega)
      exact ⟨inside, by omega⟩

theorem contains_of_lt {i : RoundingInterval} {d : Decimal}
    (left : i.low * Nat.pow 10 (-d.exponent).toNat <
      d.digits * Nat.pow 10 d.exponent.toNat * i.scale)
    (right : d.digits * Nat.pow 10 d.exponent.toNat * i.scale <
      i.high * Nat.pow 10 (-d.exponent).toNat) : i.contains d := by
  unfold contains
  dsimp only
  split
  · exact (Bool.and_eq_true _ _).mpr ⟨decide_eq_true left.le, decide_eq_true right.le⟩
  · exact (Bool.and_eq_true _ _).mpr ⟨decide_eq_true left, decide_eq_true right⟩

/-- A number is a multiple of every power of ten that is not above its power of two and not above
1. -/
theorem contains_floor (pos : 0 < m) {exponent : Int} (fine : exponent ≤ min e 0) :
    (ofDyadic m e).contains ((ofDyadic m e).floor exponent) := by
  set i := ofDyadic m e with hi
  have whole : exponent.toNat = 0 := by omega
  have divides : i.scale ∣ i.value * Nat.pow 10 (-exponent).toNat := by
    have power : Nat.pow 2 (-e).toNat ∣ Nat.pow 10 (-exponent).toNat :=
      (pow_dvd_pow 2 (by omega)).trans (pow_dvd_pow_of_dvd (by decide) _)
    have four : 4 ∣ i.value := ⟨m * Nat.pow 2 e.toNat, Nat.mul_assoc 4 m _⟩
    exact Nat.mul_dvd_mul four power
  have positive : 0 < i.scale := Nat.mul_pos (by decide) (Nat.pow_pos (by decide))
  have point : (i.floor exponent).digits * Nat.pow 10 exponent.toNat * i.scale =
      i.value * Nat.pow 10 (-exponent).toNat := by
    rw [floor, whole]
    simpa using Nat.div_mul_cancel divides
  have unit : 0 < Nat.pow 10 (-exponent).toNat := Nat.pow_pos (by decide)
  have step : 0 < Nat.pow 2 e.toNat := Nat.pow_pos (by decide)
  have below : i.low < i.value := Nat.mul_lt_mul_of_pos_right (by split <;> omega) step
  have above : i.value < i.high := Nat.mul_lt_mul_of_pos_right (by omega) step
  have left := Nat.mul_lt_mul_of_pos_right below unit
  have right := Nat.mul_lt_mul_of_pos_right above unit
  rw [← point] at left right
  exact contains_of_lt left right

/-- The first grid is not finer than needed for the number to be a point of the last one. -/
theorem min_le_order (pos : 0 < m) : min e 0 ≤ (ofDyadic m e).order := by
  have scale : (ofDyadic m e).scale = 4 * 2 ^ (-e).toNat := rfl
  have value : (ofDyadic m e).value = 4 * m * 2 ^ e.toNat := rfl
  unfold order
  split
  next =>
    have digits := Nat.length_toDigits_pos (b := 10)
      (n := (ofDyadic m e).value / (ofDyadic m e).scale)
    omega
  next below =>
    have small : (ofDyadic m e).scale / (ofDyadic m e).value < 10 ^ ((-e).toNat + 1) := by
      have unit := Nat.two_pow_pos e.toNat
      calc (ofDyadic m e).scale / (ofDyadic m e).value
        _ ≤ 2 ^ (-e).toNat := by
          rw [scale, value]
          refine Nat.div_le_of_le_mul (Nat.mul_le_mul_right _ ?_)
          exact Nat.mul_assoc 4 m _ ▸ Nat.le_mul_of_pos_right 4 (Nat.mul_pos pos unit)
        _ < 2 ^ ((-e).toNat + 1) := Nat.pow_lt_pow_succ (by decide)
        _ ≤ 10 ^ ((-e).toNat + 1) := Nat.pow_le_pow_left (by decide) _
    have digits := (Nat.length_toDigits_le_iff (by decide) (Nat.succ_pos _)).2 small
    have negative : e < 0 := by
      by_contra nonneg
      have zero : (-e).toNat = 0 := by omega
      have unit := Nat.two_pow_pos e.toNat
      have least := Nat.mul_pos pos unit
      rw [scale, value, zero, Nat.mul_assoc] at below
      omega
    omega

end RoundingInterval

namespace Decimal

variable {m : Nat} {e : Int}

theorem shortest_spec (pos : 0 < m) :
    Binary64.RoundsTo (shortest m e).value m e ∧ min e 0 ≤ (shortest m e).exponent := by
  have order := RoundingInterval.min_le_order (e := e) pos
  obtain ⟨inside, bound⟩ := RoundingInterval.coarsest_spec
    (fun _ => RoundingInterval.contains_floor (e := e) pos)
    ((RoundingInterval.ofDyadic m e).order - min e 0).toNat (RoundingInterval.ofDyadic m e).order
    (by omega)
  refine ⟨RoundingInterval.roundsTo_of_contains pos inside, ?_⟩
  change _ ≤ (RoundingInterval.coarsest _ _ _).exponent
  omega

theorem shortest_digits_pos (canonical : Binary64.Canonical m e) : 0 < (shortest m e).digits := by
  have reach := Binary64.reachBelow_le (m := m) (e := e)
  have least : (1 : ℚ) ≤ m := by exact_mod_cast canonical.pos
  have positive : 0 < (shortest m e).value :=
    calc (0 : ℚ)
      _ < (m - Binary64.reachBelow m e) * 2 ^ e := mul_pos (by linarith) (by positivity)
      _ ≤ (shortest m e).value := (shortest_spec canonical.pos).1.lower
  have scaled := pos_of_mul_pos_left positive (by positivity)
  exact_mod_cast scaled

/-- A fraction does not have more places than the number has bits after the point, and so not more
digits than can decide between two numbers. -/
theorem shortest_digits_lt (canonical : Binary64.Canonical m e) {places : Nat}
    (exponent : (shortest m e).exponent = -(places : Int)) (fraction : 0 < places) :
    places ≤ 1074 ∧ (shortest m e).digits < 2 ^ 53 * 5 ^ 1074 := by
  obtain ⟨rounds, bound⟩ := shortest_spec (e := e) canonical.pos
  have least := canonical.least
  have few : places ≤ 1074 := by omega
  refine ⟨few, ?_⟩
  have mantissa : (m : ℚ) + 1 ≤ 2 ^ 53 := by exact_mod_cast canonical.upper
  have value : (shortest m e).value = (shortest m e).digits / 10 ^ places := by
    rw [Decimal.value, exponent, zpow_neg, zpow_natCast, div_eq_mul_inv]
  have digits : ((shortest m e).digits : ℚ) < 2 ^ 53 * 5 ^ 1074 := 
    calc ((shortest m e).digits : ℚ)
      _ = (shortest m e).value * 10 ^ places := by rw [value]; field_simp
      _ ≤ (m + 1 / 2) * 2 ^ e * 10 ^ places := by gcongr; exact rounds.upper
      _ < 2 ^ 53 * 2 ^ e * 10 ^ places := by gcongr; linarith
      _ ≤ 2 ^ 53 * 2 ^ (-(places : Int)) * 10 ^ places := by
        gcongr
        · norm_num
        · omega
      _ = 2 ^ 53 * 5 ^ places := by
        rw [zpow_neg, zpow_natCast, show (10 : ℚ) = 2 * 5 by norm_num, mul_pow]
        field_simp
      _ ≤ 2 ^ 53 * 5 ^ 1074 := by
        gcongr
        norm_num
  exact_mod_cast digits

end Decimal

end ScriptHost
