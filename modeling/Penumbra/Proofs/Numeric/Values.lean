import Mathlib
import Penumbra.Proofs.Numeric.Comparison
import Penumbra.Proofs.Numeric.Rounding

/-!
# Values of machine scalars

A machine scalar that is a number has a value, a rational; infinity is given the first value above
the format.  Numbers are compared as their values are, and the whole pixels next to a number are
those next to its value.

**Results**

* `UnpackedFloat.compare_eq`, `le_iff_value`, `lt_iff_value`: comparisons are those of the values.
* `eq_or_zero_of_beq`: what are not told apart.
* `Binary32.le_floorPixels_iff`, `Binary32.ceilPixels_le_iff`: whole pixels, by the value.
-/

namespace Penumbra

open Float.Model

/-- A significand and an exponent that the 32-bit format has, the former as long as it can be. -/
structure Significand (m : Nat) (e : Int) : Prop where
  lt : m < 16777216
  low : -149 ≤ e
  high : e ≤ 104
  leading : e = -149 ∨ 8388608 ≤ m

namespace Significand

variable {m m' : Nat} {e e' : Int}

/-- A larger exponent makes a larger magnitude, whatever the significands are. -/
theorem lt_of_exponent_lt (h : Significand m e) (h' : Significand m' e') (hlt : e < e') :
    (m : ℚ) * 2 ^ e < m' * 2 ^ e' := by
  have hsize : (m : ℚ) < 8388608 * 2 := by
    norm_num
    exact_mod_cast h.lt
  have hleading : (8388608 : ℚ) ≤ m' := by
    rcases h'.leading with hlow | hleading
    · exact absurd (hlow ▸ hlt) (not_lt.mpr h.low)
    · exact_mod_cast hleading
  calc (m : ℚ) * 2 ^ e < 8388608 * 2 * 2 ^ e := by
        gcongr
    _ = 8388608 * 2 ^ (e + 1) := by
        rw [zpow_add_one₀ two_ne_zero]
        ring
    _ ≤ 8388608 * 2 ^ e' := by
        gcongr
        · norm_num
        · exact hlt
    _ ≤ m' * 2 ^ e' := by
        gcongr

theorem lex_iff (h : Significand m e) (h' : Significand m' e') :
    (compare e e').then (compare m m') = .lt ↔ (m : ℚ) * 2 ^ e < m' * 2 ^ e' := by
  rw [Ordering.then_eq_lt, compare_lt_iff_lt, compare_lt_iff_lt, compare_eq_iff_eq]
  rcases lt_trichotomy e e' with hlt | rfl | hgt
  · exact iff_of_true (Or.inl hlt) (h.lt_of_exponent_lt h' hlt)
  · have hpos : (0 : ℚ) < 2 ^ e := zpow_pos two_pos e
    simp [mul_lt_mul_iff_left₀ hpos]
  · refine iff_of_false ?_ (h'.lt_of_exponent_lt h hgt).not_gt
    omega

theorem lt_limit (h : Significand m e) : (m : ℚ) * 2 ^ e < 2 ^ 128 := by
  calc (m : ℚ) * 2 ^ e < 16777216 * 2 ^ e := by
        gcongr
        exact_mod_cast h.lt
    _ ≤ 16777216 * 2 ^ (104 : Int) := by
        gcongr
        · norm_num
        · exact h.high
    _ = 2 ^ 128 := by
        norm_num

end Significand

theorem magnitude_pos {m : Nat} (hm : 0 < m) (e : Int) : 0 < (m : ℚ) * 2 ^ e :=
  mul_pos (Nat.cast_pos.mpr hm) (zpow_pos two_pos e)

theorem eq_of_lex_eq {m m' : Nat} {e e' : Int}
    (h : (compare e e').then (compare m m') = .eq) : e = e' ∧ m = m' := by
  rwa [Ordering.then_eq_eq, compare_eq_iff_eq, compare_eq_iff_eq] at h

theorem magnitude_eq_of_lex_eq {m m' : Nat} {e e' : Int}
    (h : (compare e e').then (compare m m') = .eq) : (m : ℚ) * 2 ^ e = m' * 2 ^ e' := by
  rw [(eq_of_lex_eq h).1, (eq_of_lex_eq h).2]

namespace UnpackedFloat

/-- The value of a number; infinity has the first value above the format. -/
def value : UnpackedFloat → ℚ
  | .infinity .positive => 2 ^ 128
  | .infinity .negative => -2 ^ 128
  | .finite .positive m e _ => m * 2 ^ e
  | .finite .negative m e _ => -(m * 2 ^ e)
  | .zero _ => 0
  | .notANumber => 0

/-- What the bits of a number are taken apart into. -/
def Canonical : UnpackedFloat → Prop
  | .finite _ m e _ => Significand m e
  | .notANumber => False
  | _ => True

section Compare

variable {u v : UnpackedFloat}

theorem value_lt_of_compare (hu : Canonical u) (hv : Canonical v)
    (h : u.compare v = some .lt) : value u < value v := by
  have hlimit : (0 : ℚ) < 2 ^ 128 := by positivity
  have hbelow : -(2 ^ 128 : ℚ) < 0 := neg_neg_of_pos hlimit
  -- Two signs on either side; most of the pairs are not compared as less.
  rcases u with ⟨_ | _⟩ | _ | s | ⟨_ | _, m, e, hm⟩ <;>
    rcases v with ⟨_ | _⟩ | _ | s' | ⟨_ | _, m', e', hm'⟩ <;>
    (try (cases h; done)) <;> simp only [value]
  · exact hbelow.trans hlimit
  · exact hbelow
  · exact neg_lt_neg (Significand.lt_limit hv)
  · exact hbelow.trans (magnitude_pos hm' e')
  · exact hlimit
  · exact magnitude_pos hm' e'
  · exact (neg_neg_of_pos (magnitude_pos hm e)).trans hlimit
  · exact neg_neg_of_pos (magnitude_pos hm e)
  · rw [UnpackedFloat.compare, Option.some.injEq, swap_compare_magnitude] at h
    exact neg_lt_neg ((Significand.lex_iff hv hu).mp h)
  · exact (neg_neg_of_pos (magnitude_pos hm e)).trans (magnitude_pos hm' e')
  · exact Significand.lt_limit hu
  · exact (Significand.lex_iff hu hv).mp (Option.some.inj h)

theorem value_eq_of_compare (h : u.compare v = some .eq) : value u = value v := by
  rcases u with ⟨_ | _⟩ | _ | s | ⟨_ | _, m, e, hm⟩ <;>
    rcases v with ⟨_ | _⟩ | _ | s' | ⟨_ | _, m', e', hm'⟩ <;>
    first
    | rfl
    | exact magnitude_eq_of_lex_eq (Option.some.inj h)
    | rw [UnpackedFloat.compare, Option.some.injEq, swap_compare_magnitude] at h
      exact congrArg Neg.neg (magnitude_eq_of_lex_eq h).symm
    | cases h

theorem compare_eq (hu : Canonical u) (hv : Canonical v) :
    u.compare v = some (compare (value u) (value v)) := by
  cases h : u.compare v with
  | none =>
      rcases (compare_eq_none_iff u v).mp h with rfl | rfl
      · exact hu.elim
      · exact hv.elim
  | some o =>
      cases o with
      | lt => rw [compare_lt_iff_lt.mpr (value_lt_of_compare hu hv h)]
      | eq => rw [compare_eq_iff_eq.mpr (value_eq_of_compare h)]
      | gt =>
          have hswap : v.compare u = some .lt := by
            rw [← swap_compare, h]
            rfl
          rw [compare_gt_iff_gt.mpr (value_lt_of_compare hv hu hswap)]

/-- Numbers that are not told apart are the same, or both are zero. -/
theorem eq_or_zero_of_compare (h : u.compare v = some .eq) :
    u = v ∨ (∃ s, u = .zero s) ∧ ∃ s, v = .zero s := by
  rcases u with ⟨_ | _⟩ | _ | s | ⟨_ | _, m, e, hm⟩ <;>
    rcases v with ⟨_ | _⟩ | _ | s' | ⟨_ | _, m', e', hm'⟩ <;>
    first
    | exact Or.inl rfl
    | exact Or.inr ⟨⟨_, rfl⟩, _, rfl⟩
    | cases h
    | obtain ⟨rfl, rfl⟩ := eq_of_lex_eq (Option.some.inj h)
      exact Or.inl rfl
    | rw [UnpackedFloat.compare, Option.some.injEq, swap_compare_magnitude] at h
      obtain ⟨rfl, rfl⟩ := eq_of_lex_eq h
      exact Or.inl rfl

end Compare

end UnpackedFloat

section Equality

variable {a b : Float32}

theorem eq_of_unpacked_eq (h : unpacked a = unpacked b) : a = b := by
  rw [← Float32.ofBits_toBits a, ← Float32.ofBits_toBits b]
  exact congrArg (fun u => Float32.ofModel (Float32.Model.pack u)) h

/-- Machine numbers that are not told apart are the same, or both are zero. -/
theorem eq_or_zero_of_beq (h : (a == b) = true) :
    a = b ∨ (∃ s, unpacked a = .zero s) ∧ ∃ s, unpacked b = .zero s := by
  change ((unpacked a).compare (unpacked b) == some .eq) = true at h
  rw [beq_iff_eq] at h
  exact (UnpackedFloat.eq_or_zero_of_compare h).imp_left eq_of_unpacked_eq

end Equality

namespace Binary32

section Bits

variable (a : Float32)

def signOf : UnpackedFloat.Sign := if isNegative a then .negative else .positive

theorem toNat_unpackExponent :
    (@UnpackedFloat.unpackExponent .binary32 a.toBits.toBitVec).toNat = exponentField a := by
  rw [UnpackedFloat.unpackExponent_def, BitVec.extractLsb'_toNat, Nat.shiftRight_eq_div_pow]
  rfl

theorem toNat_unpackMantissa :
    (@UnpackedFloat.unpackMantissa .binary32 a.toBits.toBitVec).toNat = fractionField a := by
  rw [UnpackedFloat.unpackMantissa_def, BitVec.extractLsb'_toNat]
  rfl

theorem ofBitVec_unpackSign :
    UnpackedFloat.Sign.ofBitVec (@UnpackedFloat.unpackSign .binary32 a.toBits.toBitVec) =
      signOf a := by
  have hbits : (@UnpackedFloat.unpackSign .binary32 a.toBits.toBitVec).toNat =
      a.toBits.toNat / 2147483648 % 2 := by
    rw [UnpackedFloat.unpackSign_def, BitVec.extractLsb'_toNat, Nat.shiftRight_eq_div_pow]
    rfl
  have hlt : a.toBits.toNat < 4294967296 := a.toBits.toNat_lt
  have hzero : @UnpackedFloat.unpackSign .binary32 a.toBits.toBitVec = 0#1 ↔
      ¬isNegative a = true := by
    rw [← BitVec.toNat_inj, hbits, isNegative, decide_eq_true_eq, signBit, BitVec.toNat_zero]
    omega
  simp only [UnpackedFloat.Sign.ofBitVec, signOf, hzero, ite_not]

/-- The bits of a number taken apart, by their fields. -/
theorem unpacked_eq : unpacked a =
    if exponentField a = highestField then
      if fractionField a = 0 then .infinity (signOf a) else .notANumber
    else if exponentField a = 0 then
      if h : fractionField a = 0 then .zero (signOf a)
      else .finite (signOf a) (fractionField a) (-149) (Nat.pos_of_ne_zero h)
    else .finite (signOf a) (fractionField a + fractionRange) (exponentField a - 150)
      (Nat.add_pos_right _ (by decide)) := by
  have hexponent := toNat_unpackExponent a
  have hmantissa := toNat_unpackMantissa a
  have hleading : (1#1 ++ @UnpackedFloat.unpackMantissa .binary32 a.toBits.toBitVec).toNat =
      fractionField a + fractionRange := by
    rw [BitVec.toNat_append, ← Nat.shiftLeft_add_eq_or_of_lt (BitVec.isLt _), hmantissa,
      Nat.add_comm]
    rfl
  have hones : @UnpackedFloat.unpackExponent .binary32 a.toBits.toBitVec = -1#_ ↔
      exponentField a = highestField := by
    rw [← hexponent, ← BitVec.toNat_inj]
    rfl
  have hzeros : @UnpackedFloat.unpackExponent .binary32 a.toBits.toBitVec = 0#_ ↔
      exponentField a = 0 := by
    rw [← hexponent, ← BitVec.toNat_inj]
    rfl
  have hnone : @UnpackedFloat.unpackMantissa .binary32 a.toBits.toBitVec = 0#_ ↔
      fractionField a = 0 := by
    rw [← hmantissa, ← BitVec.toNat_inj]
    rfl
  change UnpackedFloat.unpack .binary32 a.toBits.toBitVec = _
  simp only [UnpackedFloat.unpack, hones, hzeros, hnone, ofBitVec_unpackSign, hleading, hexponent,
    hmantissa]
  split_ifs with hhighest hempty hlowest
  · rfl
  · rfl
  · rfl
  · rw [hlowest]
    rfl
  · rfl

end Bits

/-- The value of a scalar that is a number. -/
def value (a : Float32) : ℚ := UnpackedFloat.value (unpacked a)

/-- A magnitude with the sign of a number. -/
def signed (a : Float32) (magnitude : ℚ) : ℚ := if isNegative a then -magnitude else magnitude

theorem value_infinity (a : Float32) :
    UnpackedFloat.value (.infinity (signOf a)) = signed a (2 ^ 128) := by
  unfold signOf signed
  split <;> rfl

theorem value_finite (a : Float32) (m : Nat) (e : Int) (hm : 0 < m) :
    UnpackedFloat.value (.finite (signOf a) m e hm) = signed a (m * 2 ^ e) := by
  unfold signOf signed
  split <;> rfl

/-- What a scalar is, with its parts and its value. -/
inductive Kind (a : Float32) : Prop
  | notANumber (hunpacked : unpacked a = .notANumber)
  | infinity (hparts : magnitude? a = none) (hinfinite : isInfinite a = true)
      (hcanonical : UnpackedFloat.Canonical (unpacked a)) (hvalue : value a = signed a (2 ^ 128))
  | finite (m : Nat) (e : Int) (hparts : magnitude? a = some (m, e)) (hlegal : Significand m e)
      (hcanonical : UnpackedFloat.Canonical (unpacked a)) (hvalue : value a = signed a (m * 2 ^ e))

theorem kind (a : Float32) : Kind a := by
  have hunpacked := unpacked_eq a
  have hexponent : exponentField a < 256 := Nat.mod_lt _ (by decide)
  have hfraction : fractionField a < 8388608 := Nat.mod_lt _ (by decide)
  have hrange : fractionRange = 8388608 := rfl
  have hhighest : highestField = 255 := rfl
  split_ifs at hunpacked with hinfinite hnone hzero hnone
  · refine .infinity (if_pos hinfinite) (by simp [isInfinite, hinfinite, hnone]) ?_ ?_
    · rw [hunpacked]
      trivial
    · rw [value, hunpacked, value_infinity]
  · exact .notANumber hunpacked
  · refine .finite 0 (-149) ?_ ⟨by omega, by omega, by omega, Or.inl rfl⟩ ?_ ?_
    · rw [magnitude?, if_neg hinfinite, if_pos hzero, hnone]
    · rw [hunpacked]
      trivial
    · simp [value, hunpacked, UnpackedFloat.value, signed]
  · have hlegal : Significand (fractionField a) (-149) :=
      ⟨by omega, by omega, by omega, Or.inl rfl⟩
    refine .finite (fractionField a) (-149) ?_ hlegal ?_ ?_
    · rw [magnitude?, if_neg hinfinite, if_pos hzero]
    · rw [hunpacked]
      exact hlegal
    · rw [value, hunpacked, value_finite]
  · have hlegal : Significand (fractionField a + fractionRange) (exponentField a - 150) :=
      ⟨by omega, by omega, by omega, Or.inr (by omega)⟩
    refine .finite (fractionField a + fractionRange) (exponentField a - 150) ?_ hlegal ?_ ?_
    · rw [magnitude?, if_neg hinfinite, if_neg hzero]
    · rw [hunpacked]
      exact hlegal
    · rw [value, hunpacked, value_finite]

theorem canonical_of_isNumber {a : Float32} (ha : Scalar.isNumber a = true) :
    UnpackedFloat.Canonical (unpacked a) := by
  cases kind a with
  | notANumber hunpacked => exact absurd hunpacked ((isNumber_iff a).mp ha)
  | infinity _ _ hcanonical _ => exact hcanonical
  | finite _ _ _ _ hcanonical _ => exact hcanonical

section Comparisons

variable {a b : Float32}

theorem lt_iff_value (ha : Scalar.isNumber a = true) (hb : Scalar.isNumber b = true) :
    a < b ↔ value a < value b := by
  rw [lt_iff_compare,
    UnpackedFloat.compare_eq (canonical_of_isNumber ha) (canonical_of_isNumber hb),
    Option.some.injEq, compare_lt_iff_lt]
  rfl

theorem le_iff_value (ha : Scalar.isNumber a = true) (hb : Scalar.isNumber b = true) :
    a ≤ b ↔ value a ≤ value b := by
  rw [le_iff_compare,
    UnpackedFloat.compare_eq (canonical_of_isNumber ha) (canonical_of_isNumber hb),
    Option.any_some, ← compare_le_iff_le, Ordering.isLE_iff_ne_gt]
  rfl

end Comparisons

section WholePixels

/-- The quotient that a magnitude is written as. -/
theorem scaled_spec (m : Nat) (e : Int) :
    0 < (BinaryFormat.scaled m 1 (-e)).2 ∧
      (m * 2 ^ e * (BinaryFormat.scaled m 1 (-e)).2 : ℚ) = (BinaryFormat.scaled m 1 (-e)).1 := by
  obtain ⟨hden, hratio⟩ := BinaryFormat.scaled_ratio m Nat.one_pos (-e)
  rw [zpow_neg, div_inv_eq_mul, Nat.cast_one, div_one] at hratio
  refine ⟨hden, ?_⟩
  rw [← hratio, div_mul_cancel₀]
  exact_mod_cast hden.ne'

variable {a : Float32} {n : Nat}

theorem le_floorPixels_iff (hnumber : Scalar.isNumber a = true) (ha : 0 ≤ value a)
    (hn : n ≤ 16777216) : n ≤ floorPixels a ↔ (n : ℚ) ≤ value a := by
  have hpixels : n ≤ maxPixels := hn.trans (by decide)
  rw [isNumber_iff] at hnumber
  cases kind a with
  | notANumber hunpacked => exact absurd hunpacked hnumber
  | infinity hparts hinfinite _ hvalue =>
      have hlimit : (n : ℚ) ≤ 2 ^ 128 := by
        calc (n : ℚ) ≤ 16777216 := by exact_mod_cast hn
          _ ≤ 2 ^ 128 := by norm_num
      rw [hvalue, signed] at ha ⊢
      split_ifs at ha ⊢ with hnegative
      · norm_num at ha
      · simp [floorPixels, hparts, hinfinite, hnegative, hpixels, hlimit]
  | finite m e hparts _ _ hvalue =>
      obtain ⟨hden, hratio⟩ := scaled_spec m e
      rw [hvalue, signed] at ha ⊢
      have hsize : (0 : ℚ) ≤ m * 2 ^ e := by positivity
      split_ifs at ha ⊢ with hnegative
      · have hzero : (m : ℚ) * 2 ^ e = 0 := by linarith
        simp [floorPixels, hparts, hnegative, hzero]
      · simp only [floorPixels, hparts, hnegative, Bool.false_eq_true, if_false, le_min_iff,
          hpixels, and_true]
        rw [Nat.le_div_iff_mul_le hden, ← @Nat.cast_le ℚ, Nat.cast_mul, ← hratio,
          mul_le_mul_iff_left₀ (by exact_mod_cast hden)]

theorem ceilPixels_le_iff (hnumber : Scalar.isNumber a = true) (hn : n ≤ 16777216) :
    ceilPixels a ≤ n ↔ value a ≤ n := by
  have hpixels : n < maxPixels := hn.trans_lt (by decide)
  rw [isNumber_iff] at hnumber
  cases kind a with
  | notANumber hunpacked => exact absurd hunpacked hnumber
  | infinity hparts hinfinite _ hvalue =>
      have hlimit : (n : ℚ) < 2 ^ 128 := by
        calc (n : ℚ) ≤ 16777216 := by exact_mod_cast hn
          _ < 2 ^ 128 := by norm_num
      rw [hvalue, signed]
      split_ifs with hnegative
      · have hbelow : -2 ^ 128 ≤ (n : ℚ) :=
          (by norm_num : -2 ^ 128 ≤ (0 : ℚ)).trans n.cast_nonneg
        simp [ceilPixels, hparts, hnegative, hbelow]
      · simp [ceilPixels, hparts, hinfinite, hnegative, hpixels.not_ge, hlimit.not_ge]
  | finite m e hparts _ _ hvalue =>
      obtain ⟨hden, hratio⟩ := scaled_spec m e
      rw [hvalue, signed]
      have hsize : (0 : ℚ) ≤ m * 2 ^ e := by positivity
      split_ifs with hnegative
      · have hbelow : -(m * 2 ^ e) ≤ (n : ℚ) := (neg_nonpos.mpr hsize).trans n.cast_nonneg
        simp [ceilPixels, hparts, hnegative, hbelow]
      · have hdenominator : (0 : ℚ) < (BinaryFormat.scaled m 1 (-e)).2 := by
          exact_mod_cast hden
        simp only [ceilPixels, hparts, hnegative, Bool.false_eq_true, if_false, min_le_iff,
          hpixels.not_ge, or_false]
        rw [Nat.div_le_iff_le_mul_add_pred hden, ← mul_le_mul_iff_left₀ hdenominator, hratio]
        norm_cast
        rw [Nat.mul_comm]
        omega

end WholePixels

end Binary32
end Penumbra
