import Mathlib
import ScriptHost.Proofs.Float.Rounding

/-!
The bits of binary64 numbers. Unpacking finds the mantissa and the exponent of a finite number, and
packing keeps both. The lemmas on packed signs come from the library, where only Mathlib as a whole
brings them along.
-/

namespace ScriptHost

namespace Binary64

open Float.Model (Format UnpackedFloat)
open Float.Model.UnpackedFloat

/-- The first bit of a normal mantissa is not stored. -/
theorem toNat_one_append (v : BitVec 52) : (1#1 ++ v).toNat = 2 ^ 52 + v.toNat := by
  rw [BitVec.toNat_append, Nat.shiftLeft_eq, Nat.or_comm]
  exact (Nat.or_two_pow_eq_add_of_lt v.isLt).trans (Nat.add_comm _ _)

variable {m : Nat} {e : Int}

theorem canonical_of_unpack {b : BitVec Format.binary64.numBits} {sign : Sign} {pos : 0 < m}
    (found : unpack Format.binary64 b = .finite sign m e pos) : Canonical m e := by
  have mantissa := (@unpackMantissa Format.binary64 b).isLt
  have exponent := (@unpackExponent Format.binary64 b).isLt
  have bias : (Format.binary64.exponentBias : Int) = 1023 := rfl
  unfold unpack at found
  dsimp only at found mantissa exponent
  split at found
  next => split at found <;> cases found
  next notLast =>
    have finite : (@unpackExponent Format.binary64 b).toNat ≠ 2047 :=
      fun same => notLast (BitVec.eq_of_toNat_eq same)
    split at found
    next least =>
      split at found
      next => cases found
      next =>
        have least : (@unpackExponent Format.binary64 b).toNat = 0 :=
          congrArg BitVec.toNat least
        injection found with _ hm he
        refine ⟨pos, ?_, ?_, ?_, .inr ?_⟩ <;> omega
    next normal =>
      have positive : (@unpackExponent Format.binary64 b).toNat ≠ 0 :=
        fun same => normal (BitVec.eq_of_toNat_eq same)
      injection found with _ hm he
      rw [toNat_one_append] at hm
      refine ⟨pos, ?_, ?_, ?_, .inl ?_⟩ <;> omega

theorem unpack_normal (sign : Sign) {exponent : BitVec 11} (mantissa : BitVec 52)
    (low : exponent ≠ 0#11) (high : exponent ≠ -1#11) :
    unpack Format.binary64 (packComponents Format.binary64 sign exponent mantissa) =
      .finite sign (2 ^ 52 + mantissa.toNat) ((exponent.toNat : Int) - 1075) (by omega) := by
  have bias : (Format.binary64.exponentBias : Int) + (52 : Nat) = 1075 := rfl
  simp only [unpack, unpackExponent_packComponents, unpackMantissa_packComponents,
    unpackSign_packComponents, Sign.ofBitVec_toBitVec, toNat_one_append, bias, if_neg low,
    if_neg high]

theorem unpack_subnormal (sign : Sign) {mantissa : BitVec 52} (nonzero : mantissa ≠ 0#52) :
    unpack Format.binary64 (packComponents Format.binary64 sign 0#11 mantissa) =
      .finite sign mantissa.toNat (-1074) (BitVec.toNat_pos_of_ne_zero nonzero) := by
  have bias : (Format.binary64.exponentBias : Int) + (52 : Nat) = 1075 := rfl
  simp only [unpack, unpackExponent_packComponents, unpackMantissa_packComponents,
    unpackSign_packComponents, Sign.ofBitVec_toBitVec, bias]
  rw [if_neg (by decide), if_pos trivial, dif_neg nonzero]
  rfl

/-- The bits of a number of the format keep its sign, mantissa and exponent. -/
theorem unpack_pack (sign : Sign) (canonical : Canonical m e) :
    unpack Format.binary64 (pack Format.binary64 (.finite sign m e canonical.pos)) =
      .finite sign m e canonical.pos := by
  obtain ⟨pos, upper, least, greatest, normal⟩ := canonical
  have bias : e + Format.binary64.exponentBias + (52 : Nat) = e + 1075 := Int.add_assoc e 1023 52
  have fits : ¬2 ^ 11 ≤ (e + 1075).toNat + 1 := by omega
  have bits : Format.binary64.mantissaBits = 53 := rfl
  simp only [pack, bias, bits, if_neg fits]
  by_cases full : 2 ^ 52 ≤ m
  · have exponent : (BitVec.ofNat 11 (e + 1075).toNat).toNat = (e + 1075).toNat :=
      Nat.mod_eq_of_lt (by omega)
    have mantissa : (BitVec.ofNat 52 m).toNat = m - 2 ^ 52 := by
      change m % 2 ^ 52 = m - 2 ^ 52
      omega
    have low : BitVec.ofNat 11 (e + 1075).toNat ≠ 0#11 := fun same => by
      have zero : (e + 1075).toNat = 0 := exponent.symm.trans (congrArg BitVec.toNat same)
      omega
    have high : BitVec.ofNat 11 (e + 1075).toNat ≠ -1#11 := fun same => by
      have last : (e + 1075).toNat = 2047 := exponent.symm.trans (congrArg BitVec.toNat same)
      omega
    rw [if_pos (by rw [log2_eq full upper]), unpack_normal sign _ low high]
    congr 1 <;> omega
  · obtain rfl := normal.resolve_left full
    have log : m.log2 < 52 := (Nat.log2_lt pos.ne').2 (by omega)
    have mantissa : (BitVec.ofNat 52 m).toNat = m := Nat.mod_eq_of_lt (by omega)
    have nonzero : BitVec.ofNat 52 m ≠ 0#52 := fun same => by
      have zero : m = 0 := mantissa.symm.trans (congrArg BitVec.toNat same)
      omega
    rw [if_neg (by omega), unpack_subnormal sign nonzero]
    congr 1

end Binary64

end ScriptHost
