import Mathlib
import Penumbra.Proofs.Numeric.Values

/-!
# Counts as machine scalars

A count becomes a machine scalar by rounding.  Counts up to `2 ^ 24` are kept exactly, and larger
ones become positive finite numbers, as long as the format has any.

**Results**

* `Binary32.unpacked_ofMagnitude`: the number with some significand and exponent.
* `Binary32.exists_ofNat`: the significand and the exponent of a count.
* `Binary32.isNumber_ofNat`, `Binary32.value_ofNat`: counts up to `2 ^ 24`.
* `Binary32.sub_zero_div_self`, `Binary32.zero_div_ofNat`: the quotients at the ends of a scale.
-/

namespace Penumbra

open Float.Model

namespace Binary32

section Bits

/-- Bits are kept unless they are those of something that is not a number. -/
theorem toBits_ofBits {u : UInt32} (h : u.toNat % signBit ≤ highestField * fractionRange) :
    (Float32.ofBits u).toBits = u := by
  have hexponent : (@UnpackedFloat.unpackExponent .binary32 u.toBitVec).toNat =
      u.toNat / fractionRange % exponentRange := by
    rw [UnpackedFloat.unpackExponent_def, BitVec.extractLsb'_toNat, Nat.shiftRight_eq_div_pow]
    rfl
  have hmantissa : (@UnpackedFloat.unpackMantissa .binary32 u.toBitVec).toNat =
      u.toNat % fractionRange := by
    rw [UnpackedFloat.unpackMantissa_def, BitVec.extractLsb'_toNat]
    rfl
  have hnumber : @UnpackedFloat.isNaNBits .binary32 u.toBitVec = false := by
    refine decide_eq_false fun hnan => ?_
    have hones : u.toNat / fractionRange % exponentRange = 255 := by
      rw [← hexponent, hnan.1]
      rfl
    have hrest : u.toNat % fractionRange ≠ 0 := by
      rw [← hmantissa]
      exact fun hzero => hnan.2 (BitVec.eq_of_toNat_eq hzero)
    unfold fractionRange highestField exponentRange signBit at *
    omega
  change UInt32.ofBitVec
    (UnpackedFloat.pack .binary32 (UnpackedFloat.unpack .binary32 u.toBitVec)) = u
  rw [UnpackedFloat.pack_unpack, hnumber]
  rfl

theorem toNat_toBits_signed {n : Nat} (h : n ≤ highestField * fractionRange) (negative : Bool) :
    (Float32.ofBits (UInt32.ofNat (if negative then n + signBit else n))).toBits.toNat =
      if negative then n + signBit else n := by
  have hsize : UInt32.size = 4294967296 := rfl
  have hword : (UInt32.ofNat (if negative then n + signBit else n)).toNat =
      if negative then n + signBit else n := by
    refine UInt32.toNat_ofNat_of_lt' ?_
    unfold highestField fractionRange signBit at *
    split_ifs <;> omega
  rw [toBits_ofBits, hword]
  rw [hword]
  unfold highestField fractionRange signBit at *
  split_ifs <;> omega

variable {m : Nat} {e : Int} {negative : Bool}

theorem toNat_toBits_ofMagnitude
    (h : (e + 149).toNat * fractionRange + m ≤ highestField * fractionRange) :
    (ofMagnitude negative (some (m, e))).toBits.toNat =
      if negative then (e + 149).toNat * fractionRange + m + signBit
      else (e + 149).toNat * fractionRange + m :=
  toNat_toBits_signed h negative

theorem unpacked_ofMagnitude (h : Significand m e) (hleading : 8388608 ≤ m) :
    unpacked (ofMagnitude false (some (m, e))) =
      .finite .positive m e (Nat.lt_of_lt_of_le (by decide) hleading) := by
  have hlow := h.low
  have hhigh := h.high
  have hlt := h.lt
  have htoBits := @toNat_toBits_ofMagnitude m e false (by
    unfold highestField fractionRange
    omega)
  rw [if_neg Bool.false_ne_true] at htoBits
  have hexponent : (exponentField (ofMagnitude false (some (m, e))) : Int) = e + 150 := by
    rw [exponentField, htoBits, fractionRange, exponentRange]
    omega
  have hfraction : fractionField (ofMagnitude false (some (m, e))) + fractionRange = m := by
    rw [fractionField, htoBits, fractionRange]
    omega
  have hpositive : signOf (ofMagnitude false (some (m, e))) = .positive := by
    refine if_neg ?_
    rw [isNegative, htoBits, decide_eq_true_eq, signBit, fractionRange]
    omega
  have hhighest : exponentField (ofMagnitude false (some (m, e))) ≠ highestField := by
    unfold highestField
    omega
  have hzero : exponentField (ofMagnitude false (some (m, e))) ≠ 0 := by
    omega
  rw [unpacked_eq, if_neg hhighest, if_neg hzero]
  simp only [hpositive, hfraction, hexponent, add_sub_cancel_right]

/-- A significand with one digit too many is written as the next exponent. -/
theorem ofMagnitude_carry (he : -149 ≤ e) :
    ofMagnitude negative (some (16777216, e)) = ofMagnitude negative (some (8388608, e + 1)) := by
  have hbits : (e + 149).toNat * fractionRange + 16777216 =
      (e + 1 + 149).toNat * fractionRange + 8388608 := by
    unfold fractionRange
    omega
  simp only [ofMagnitude, hbits]

end Bits

section Rounding

variable {n : Nat}

theorem roundDiv_bounds (num den : Nat) :
    num / den ≤ roundDiv num den ∧ roundDiv num den ≤ num / den + 1 := by
  have hodd : num / den % 2 < 2 := Nat.mod_lt _ Nat.two_pos
  rw [roundDiv]
  split_ifs <;> omega

theorem roundDiv_of_dvd {num den : Nat} (hden : 0 < den) (h : den ∣ num) :
    roundDiv num den = num / den := by
  rw [roundDiv, Nat.mod_eq_zero_of_dvd h, Nat.mul_zero]
  exact if_pos hden

/-- A count divided by a power of two, in whole numbers. -/
theorem le_scaled_iff {k : Nat} {e : Int} :
    k ≤ (BinaryFormat.scaled n 1 e).1 / (BinaryFormat.scaled n 1 e).2 ↔ (k : ℚ) * 2 ^ e ≤ n := by
  obtain ⟨hden, hratio⟩ := scaled_spec n (-e)
  rw [neg_neg] at hden hratio
  have hpow : (0 : ℚ) < 2 ^ e := zpow_pos two_pos e
  rw [Nat.le_div_iff_mul_le hden, ← @Nat.cast_le ℚ, Nat.cast_mul, ← hratio,
    mul_le_mul_iff_left₀ (by exact_mod_cast hden), zpow_neg, ← div_eq_mul_inv, le_div_iff₀ hpow]

/-- How many digits that whole number has. -/
theorem two_pow_le_scaled_iff {k b : Nat} {e : Int} (h : (b : Int) + e = (k : Int)) (hn : n ≠ 0) :
    2 ^ b ≤ (BinaryFormat.scaled n 1 e).1 / (BinaryFormat.scaled n 1 e).2 ↔ k ≤ n.log2 := by
  rw [le_scaled_iff, Nat.le_log2 hn, Nat.cast_pow, Nat.cast_two, ← zpow_natCast,
    ← zpow_add₀ two_ne_zero, h, zpow_natCast]
  norm_cast

/-- The significand of a count of some length. -/
def countSignificand (n : Nat) : Nat :=
  roundDiv (BinaryFormat.scaled n 1 ((n.log2 : Int) - 23)).1
    (BinaryFormat.scaled n 1 ((n.log2 : Int) - 23)).2

theorem nearest_eq (hn : n ≠ 0) (hlt : n < 2 ^ 100) :
    BinaryFormat.single.nearest n 1 = some (countSignificand n, (n.log2 : Int) - 23) := by
  have hlog : n.log2 < 100 := (Nat.log2_lt hn).mpr hlt
  have hfirst : BinaryFormat.single.firstExponent n 1 = (n.log2 : Int) - 24 := by
    have hone : Nat.log2 1 = 0 := rfl
    rw [BinaryFormat.firstExponent, hone, BinaryFormat.single]
    dsimp only
    omega
  have hexponent : BinaryFormat.single.exponentOf n 1 = (n.log2 : Int) - 23 := by
    -- The first exponent always leaves one digit too many.
    have hlong : 1 <<< BinaryFormat.single.digits ≤
        (BinaryFormat.scaled n 1 ((n.log2 : Int) - 24)).1 /
          (BinaryFormat.scaled n 1 ((n.log2 : Int) - 24)).2 :=
      (two_pow_le_scaled_iff (b := 24) (by omega) hn).mpr (Nat.le_refl _)
    rw [BinaryFormat.exponentOf, hfirst]
    refine (if_pos hlong).trans ?_
    omega
  rw [BinaryFormat.nearest, if_neg hn, hexponent]
  refine if_neg ?_
  rw [BinaryFormat.single]
  dsimp only
  omega

theorem countSignificand_bounds (hn : n ≠ 0) :
    8388608 ≤ countSignificand n ∧ countSignificand n ≤ 16777216 := by
  have hround := roundDiv_bounds (BinaryFormat.scaled n 1 ((n.log2 : Int) - 23)).1
    (BinaryFormat.scaled n 1 ((n.log2 : Int) - 23)).2
  have hlow := (two_pow_le_scaled_iff (b := 23) (k := n.log2) (e := (n.log2 : Int) - 23)
    (by omega) hn).mpr (Nat.le_refl _)
  have hhigh := (two_pow_le_scaled_iff (b := 24) (k := n.log2 + 1) (e := (n.log2 : Int) - 23)
    (by push_cast; omega) hn).not.mpr (by omega)
  exact ⟨hlow.trans hround.1, hround.2.trans (by omega)⟩

/-- Small counts are not rounded. -/
theorem countSignificand_exact (hn : n ≠ 0) (hle : n ≤ 16777216) :
    (countSignificand n : ℚ) * 2 ^ ((n.log2 : Int) - 23) = n := by
  obtain ⟨hden, hratio⟩ := scaled_spec n (-((n.log2 : Int) - 23))
  rw [neg_neg] at hden hratio
  have hdvd : (BinaryFormat.scaled n 1 ((n.log2 : Int) - 23)).2 ∣
      (BinaryFormat.scaled n 1 ((n.log2 : Int) - 23)).1 := by
    rcases hle.eq_or_lt with rfl | hlt
    · decide
    · have hlog : n.log2 < 24 := (Nat.log2_lt hn).mpr hlt
      cases hexponent : (n.log2 : Int) - 23 with
      | negSucc k => exact one_dvd _
      | ofNat k =>
          rw [Int.ofNat_eq_natCast] at hexponent
          obtain rfl : k = 0 := by
            omega
          exact one_dvd _
  have hpow : (0 : ℚ) < 2 ^ ((n.log2 : Int) - 23) := zpow_pos two_pos _
  have hdenominator : ((BinaryFormat.scaled n 1 ((n.log2 : Int) - 23)).2 : ℚ) ≠ 0 := by
    exact_mod_cast hden.ne'
  rw [countSignificand, roundDiv_of_dvd hden hdvd, Nat.cast_div hdvd hdenominator, ← hratio,
    zpow_neg]
  field_simp

end Rounding

section Counts

variable {n : Nat}

/-- What a positive count becomes. -/
theorem exists_ofNat (hn : n ≠ 0) (hlt : n < 2 ^ 100) :
    ∃ m e hm, unpacked (Scalar.ofNat n) = .finite .positive m e hm ∧ Significand m e ∧
      (n ≤ 16777216 → (m : ℚ) * 2 ^ e = n) := by
  have hlog : n.log2 < 100 := (Nat.log2_lt hn).mpr hlt
  obtain ⟨hlow, hhigh⟩ := countSignificand_bounds hn
  have hofNat : (Scalar.ofNat n : Float32) =
      ofMagnitude false (some (countSignificand n, (n.log2 : Int) - 23)) :=
    congrArg (ofMagnitude false) (nearest_eq hn hlt)
  rcases hhigh.lt_or_eq with hfits | hcarry
  · have hlegal : Significand (countSignificand n) ((n.log2 : Int) - 23) :=
      ⟨hfits, by omega, by omega, Or.inr hlow⟩
    exact ⟨_, _, _, (congrArg unpacked hofNat).trans (unpacked_ofMagnitude hlegal hlow), hlegal,
      countSignificand_exact hn⟩
  · have hlegal : Significand 8388608 ((n.log2 : Int) - 23 + 1) :=
      ⟨by decide, by omega, by omega, Or.inr (Nat.le_refl _)⟩
    rw [hcarry, ofMagnitude_carry (by omega)] at hofNat
    refine ⟨_, _, _, (congrArg unpacked hofNat).trans
      (unpacked_ofMagnitude hlegal (Nat.le_refl _)), hlegal, fun hle => ?_⟩
    rw [← countSignificand_exact hn hle, hcarry, zpow_add_one₀ two_ne_zero]
    norm_num
    ring

theorem isNumber_ofNat (hlt : n < 2 ^ 100) : Scalar.isNumber (Scalar.ofNat n : Float32) = true := by
  rw [isNumber_iff]
  rcases eq_or_ne n 0 with rfl | hn
  · have hunpacked : unpacked (Scalar.ofNat 0) = .zero .positive := rfl
    rw [hunpacked]
    exact UnpackedFloat.noConfusion
  · obtain ⟨m, e, hm, hunpacked, -⟩ := exists_ofNat hn hlt
    rw [hunpacked]
    exact UnpackedFloat.noConfusion

theorem value_ofNat (hle : n ≤ 16777216) : value (Scalar.ofNat n) = n := by
  rcases eq_or_ne n 0 with rfl | hn
  · rfl
  · obtain ⟨m, e, hm, hunpacked, -, hexact⟩ :=
      exists_ofNat hn (hle.trans_lt (by norm_num : (16777216 : Nat) < 2 ^ 100))
    rw [value, hunpacked]
    exact hexact hle

end Counts

section Quotients

variable {n : Nat}

theorem ofModel_pack_unpacked (a : Float32) : .ofModel (Float32.Model.pack (unpacked a)) = a :=
  Float32.ofBits_toBits a

/-- A positive finite number divided by itself. -/
theorem div_self_finite (m : Nat) (e : Int) (hm : 0 < m) :
    UnpackedFloat.div .binary32 (.finite .positive m e hm) (.finite .positive m e hm) =
      .finite .positive 8388608 (-23) (by decide) := by
  have hexponent : min (e - e) (Format.binary32.targetExponent
      (totalExponent m e - totalExponent m e)) = -24 := by
    rw [sub_self, sub_self]
    rfl
  have hquotient : UnpackedFloat.divCore .binary32 m e m e = (16777216, -24, .exact) := by
    have hshift : (e - e - -24).toNat = 24 := by
      omega
    have hdvd : m ∣ m <<< 24 := by
      rw [Nat.shiftLeft_eq]
      exact Nat.dvd_mul_right m _
    have hdiv : m <<< 24 / m = 16777216 := by
      rw [Nat.shiftLeft_eq]
      exact Nat.mul_div_cancel_left _ hm
    simp only [UnpackedFloat.divCore, hexponent, hshift, hdiv, Nat.mod_eq_zero_of_dvd hdvd]
    rfl
  simp only [UnpackedFloat.div, hquotient]
  rfl

/-- The upper end of a scale of some pixels is one. -/
theorem sub_zero_div_self (hn : n ≠ 0) (hlt : n < 2 ^ 100) :
    ((Scalar.ofNat n : Float32) - Scalar.ofNat 0) / Scalar.ofNat n = 1.0 := by
  obtain ⟨m, e, hm, hunpacked, -⟩ := exists_ofNat hn hlt
  have hsub : (Scalar.ofNat n : Float32) - Scalar.ofNat 0 = Scalar.ofNat n := by
    refine Eq.trans ?_ (ofModel_pack_unpacked (Scalar.ofNat n))
    change Float32.ofModel (Float32.Model.pack (UnpackedFloat.sub .binary32
      (unpacked (Scalar.ofNat n)) (unpacked (Scalar.ofNat 0)))) = _
    rw [hunpacked]
    rfl
  rw [hsub]
  change Float32.ofModel (Float32.Model.pack (UnpackedFloat.div .binary32
    (unpacked (Scalar.ofNat n)) (unpacked (Scalar.ofNat n)))) = _
  rw [hunpacked, div_self_finite]
  rfl

/-- The lower end of a scale of some pixels is zero. -/
theorem zero_div_ofNat (hn : n ≠ 0) (hlt : n < 2 ^ 100) :
    (Scalar.ofNat 0 : Float32) / Scalar.ofNat n = 0.0 := by
  obtain ⟨m, e, hm, hunpacked, -⟩ := exists_ofNat hn hlt
  change Float32.ofModel (Float32.Model.pack (UnpackedFloat.div .binary32
    (unpacked (Scalar.ofNat 0)) (unpacked (Scalar.ofNat n)))) = _
  rw [hunpacked]
  rfl

end Quotients

end Binary32
end Penumbra
