import Penumbra.Numeric.Decimal
import Penumbra.Proofs.Numeric.Counts
import Penumbra.Proofs.Numeric.Rounding

/-!
# Decimals as machine scalars

Reading a decimal rounds at most four times: the digits, the power of ten and their product or
quotient to 64 bits, and the result to 32 bits.  A decimal that agrees with a 32-bit number to nine
digits is therefore read as that number.

**Results**

* `Binary32.ofMagnitude_magnitude?`: a finite number is put together from its parts.
* `Binary32.ofMagnitude_nearest`: what is close to a number is rounded to it.
* `Binary32.isNumber_nearest`: what is rounded is a number or infinite.
* `Decimal.exists_toDouble?`: the relative error of the 64-bit value.
* `Decimal.toSingle?_of_close`: decimals that are read as a given number.
-/

namespace Penumbra

open Float.Model BinaryFormat

namespace Binary32

section Parts

variable {x : Float32} {m : Nat} {e : Int} {negative : Bool}

theorem significand_of_magnitude? (h : magnitude? x = some (m, e)) : Significand m e := by
  have hexponent : exponentField x < 256 := Nat.mod_lt _ (by decide)
  have hfraction : fractionField x < 8388608 := Nat.mod_lt _ (by decide)
  rw [magnitude?] at h
  unfold highestField fractionRange at h
  split_ifs at h with hhighest hlowest <;> simp only [Option.some.injEq, Prod.mk.injEq] at h <;>
    constructor <;> omega

/-- A finite number is put together from its parts. -/
theorem ofMagnitude_magnitude? (h : magnitude? x = some (m, e)) :
    ofMagnitude (isNegative x) (some (m, e)) = x := by
  have hbits : (if isNegative x then (e + 149).toNat * fractionRange + m + signBit
      else (e + 149).toNat * fractionRange + m) = x.toBits.toNat := by
    have hlt : x.toBits.toNat < 4294967296 := x.toBits.toNat_lt
    rw [magnitude?] at h
    unfold isNegative exponentField fractionField highestField exponentRange fractionRange
      signBit at *
    split_ifs at h ⊢ with hfield hsign <;> simp only [Option.some.injEq, Prod.mk.injEq] at h <;>
      simp only [decide_eq_true_eq] at * <;> omega
  simp only [ofMagnitude, hbits, UInt32.ofNat_toNat, Float32.ofBits_toBits]

theorem isNumber_of_bits (h : x.toBits.toNat % signBit ≤ highestField * fractionRange) :
    Scalar.isNumber x = true := by
  rw [isNumber_iff, unpacked_eq]
  unfold exponentField fractionField highestField exponentRange fractionRange signBit at *
  split_ifs
  · exact UnpackedFloat.noConfusion
  · omega
  · exact UnpackedFloat.noConfusion
  · exact UnpackedFloat.noConfusion
  · exact UnpackedFloat.noConfusion

end Parts

section Nearest

theorem natCast_eq_of_abs_sub_lt_one {m n : Nat} (h : |(m : ℚ) - n| < 1) : m = n := by
  have hint : |(m : ℤ) - n| < 1 := by
    exact_mod_cast h
  have := Int.abs_lt_one_iff.mp hint
  omega

variable {num den m : Nat} {e : Int}

/-- What is rounded is a number or infinite. -/
theorem isNumber_nearest (negative : Bool) (num : Nat) (hden : 0 < den) :
    Scalar.isNumber (ofMagnitude negative (single.nearest num den)) = true := by
  refine isNumber_of_bits ?_
  cases h : single.nearest num den with
  | none =>
      have hbits : (106 + 149 : Int).toNat * fractionRange + 0 ≤ highestField * fractionRange :=
        Nat.le_refl _
      have hinfinite : ofMagnitude negative none = ofMagnitude negative (some (0, 106)) := rfl
      rw [hinfinite, toNat_toBits_ofMagnitude hbits]
      unfold fractionRange highestField signBit
      split_ifs <;> decide
  | some a =>
      obtain ⟨m, e⟩ := a
      have hrounded := rounded_of_nearest (by decide) hden h
      have hm : m ≤ 2 ^ 24 := hrounded.le_two_pow
      have hlow : -149 ≤ e := hrounded.low
      have hhigh : e ≤ 104 := hrounded.high
      have hfits : e = 104 → m < 2 ^ 24 := hrounded.fits
      have hbits : (e + 149).toNat * fractionRange + m ≤ highestField * fractionRange := by
        unfold fractionRange highestField
        omega
      rw [toNat_toBits_ofMagnitude hbits]
      unfold fractionRange highestField signBit at *
      split_ifs <;> omega

/--
What is close to a number has the exponent of the number; only just below the first significand of an
exponent it has the one before.
-/
theorem exponent_of_close {t : ℚ} {e' : Int} (hlegal : Significand m e) (hm : 0 < m)
    (hclose : |t - m| < 1 / 4) (hkeeps : single.Keeps (t * 2 ^ e) e') :
    e' = e ∨ e = e' + 1 ∧ m = 8388608 := by
  obtain ⟨hbelow, habove⟩ := abs_lt.mp hclose
  have hpow : (0 : ℚ) < 2 ^ e := zpow_pos two_pos e
  have hone : (1 : ℚ) ≤ m := by
    exact_mod_cast hm
  have hfits : (m : ℚ) ≤ 16777215 := by
    exact_mod_cast Nat.le_of_lt_succ hlegal.lt
  have hlow : -149 ≤ e' := hkeeps.low
  have hle : e' ≤ e := by
    rcases hkeeps.leading with heq | hleading
    · exact heq ▸ hlegal.low
    · have hsize : (2 : ℚ) ^ (24 + e' - 1 : Int) < 2 ^ (24 + e : Int) := by
        refine lt_of_le_of_lt hleading ?_
        rw [zpow_add₀ two_ne_zero]
        gcongr
        norm_num
        linarith
      have := (zpow_lt_zpow_iff_right₀ one_lt_two).mp hsize
      omega
  have hge : e ≤ e' + 1 := by
    rcases hlegal.leading with heq | hleading
    · omega
    · have hlarge : (8388608 : ℚ) ≤ m := by
        exact_mod_cast hleading
      have hsize : (2 : ℚ) ^ (22 + e : Int) < 2 ^ (24 + e' : Int) := by
        refine lt_of_le_of_lt ?_ hkeeps.lt
        rw [zpow_add₀ two_ne_zero]
        gcongr
        norm_num
        linarith
      have := (zpow_lt_zpow_iff_right₀ one_lt_two).mp hsize
      omega
  rcases hle.eq_or_lt with heq | hless
  · exact Or.inl heq
  · obtain rfl : e = e' + 1 := by
      omega
    have hshort : t < 8388608 := by
      refine lt_of_mul_lt_mul_right ?_ hpow.le
      calc t * 2 ^ (e' + 1) < 2 ^ (24 + e' : Int) := hkeeps.lt
        _ = 8388608 * 2 ^ (e' + 1) := by
          rw [zpow_add₀ two_ne_zero, zpow_add_one₀ two_ne_zero]
          norm_num
          ring
    have hleading : 8388608 ≤ m := hlegal.leading.resolve_left (by omega)
    have hfirst : (m : ℚ) < (8388608 : Nat) + 1 := by
      push_cast
      linarith
    have : m < 8388608 + 1 := by
      exact_mod_cast hfirst
    exact Or.inr ⟨rfl, by omega⟩

/-- What is close to a number is rounded to it. -/
theorem ofMagnitude_nearest (negative : Bool) (hden : 0 < den) (hlegal : Significand m e)
    (hm : 0 < m) (hnear : Near (1 / 2 ^ 27) (num / den) (m * 2 ^ e)) :
    ofMagnitude negative (single.nearest num den) = ofMagnitude negative (some (m, e)) := by
  have hpow : (0 : ℚ) < 2 ^ e := zpow_pos two_pos e
  have hone : (1 : ℚ) ≤ m := by
    exact_mod_cast hm
  have hfits : (m : ℚ) ≤ 16777215 := by
    exact_mod_cast Nat.le_of_lt_succ hlegal.lt
  -- The quotient in units of the last place.
  obtain ⟨t, ht⟩ : ∃ t : ℚ, (num / den : ℚ) = t * 2 ^ e := ⟨num / den / 2 ^ e, by
    rw [div_mul_cancel₀ _ hpow.ne']⟩
  have hclose : |t - m| < 1 / 4 := by
    have hscaled : |t - m| * 2 ^ e ≤ m / 2 ^ 27 * 2 ^ e := by
      rw [Near, ht, ← sub_mul, abs_mul, abs_of_pos hpow] at hnear
      linarith
    have hunits := le_of_mul_le_mul_right hscaled hpow
    linarith
  have hnum : 0 < num := by
    refine Nat.pos_of_ne_zero fun hzero => ?_
    rw [hzero, Nat.cast_zero, zero_div, zero_eq_mul, or_iff_left hpow.ne'] at ht
    rw [ht, zero_sub, abs_neg, abs_of_pos (by linarith)] at hclose
    linarith
  obtain ⟨m', e', hkeeps, hround, heq⟩ := nearest_of_pos single hnum hden
  rw [ht] at hkeeps hround
  have hformat : single.highest = 104 ∧ 2 ^ single.digits = 16777216 := ⟨rfl, rfl⟩
  have hlow : -149 ≤ e' := hkeeps.low
  have hlt := hlegal.lt
  have hhigh := hlegal.high
  rcases exponent_of_close hlegal hm hclose hkeeps with rfl | ⟨rfl, rfl⟩
  · rw [mul_div_cancel_right₀ _ hpow.ne'] at hround
    obtain rfl : m' = m := natCast_eq_of_abs_sub_lt_one (by
      calc |(m' : ℚ) - m| ≤ |m' - t| + |t - m| := abs_sub_le _ _ _
        _ < 1 := by
          linarith)
    rw [heq, if_neg (by omega)]
  · have hdouble : t * 2 ^ (e' + 1) / 2 ^ e' = 2 * t := by
      rw [zpow_add_one₀ two_ne_zero, ← mul_assoc, mul_right_comm,
        mul_div_cancel_right₀ _ (zpow_pos two_pos e').ne', mul_comm]
    rw [hdouble] at hround
    obtain rfl : m' = 16777216 := natCast_eq_of_abs_sub_lt_one (by
      push_cast at hclose ⊢
      rw [abs_le] at hround
      rw [abs_lt] at hclose ⊢
      constructor <;> linarith)
    rw [heq, if_neg (by omega), ofMagnitude_carry hlow]

end Nearest

end Binary32

namespace BinaryFormat

/-- The value of a significand and an exponent. -/
def dyadic (a : Nat × Int) : ℚ := a.1 * 2 ^ a.2

/-- Quotients well inside the range of 64 bits keep fifty-three digits. -/
theorem exists_double {num den : Nat} (hden : 0 < den) (h : Moderate 1000 (num / den)) :
    ∃ a, double.nearest num den = some a ∧ Near (1 / 2 ^ 53) (dyadic a) (num / den) := by
  have hrange : (num / den : ℚ) < 2 ^ (double.digits + double.highest - 1 : Int) :=
    h.high.trans_lt (zpow_lt_zpow_right₀ one_lt_two (by decide))
  have hnormal : (2 : ℚ) ^ (double.digits + double.lowest - 1 : Int) ≤ num / den :=
    (zpow_le_zpow_right₀ one_le_two (by decide)).trans h.low
  obtain ⟨m, e, heq, hrounded⟩ := exists_nearest (by decide) hden hrange
  exact ⟨(m, e), heq, hrounded.near_quotient hnormal⟩

theorem exists_double_natCast {n : Nat} (h : Moderate 1000 n) :
    ∃ a, double.nearest n 1 = some a ∧ Near (1 / 2 ^ 53) (dyadic a) n := by
  have hvalue : (n : ℚ) / (1 : Nat) = n := by
    rw [Nat.cast_one, div_one]
  rw [← hvalue] at h ⊢
  exact exists_double Nat.one_pos h

end BinaryFormat

namespace Decimal

section Arithmetic

variable {a b : Nat × Int}

theorem exists_product (h : Moderate 1000 (dyadic a * dyadic b)) :
    ∃ c, product a b = some c ∧ Near (1 / 2 ^ 53) (dyadic c) (dyadic a * dyadic b) := by
  obtain ⟨hden, hratio⟩ := scaled_swapped Nat.one_pos (a.1 * b.1) (a.2 + b.2)
  have hvalue : dyadic a * dyadic b = ((a.1 * b.1 : Nat) : ℚ) / (1 : Nat) * 2 ^ (a.2 + b.2) := by
    rw [dyadic, dyadic, zpow_add₀ two_ne_zero]
    push_cast
    ring
  rw [hvalue, ← hratio] at h ⊢
  exact exists_double hden h

theorem exists_quotient (hb : 0 < dyadic b) (h : Moderate 1000 (dyadic a * (dyadic b)⁻¹)) :
    ∃ c, quotient a b = some c ∧ Near (1 / 2 ^ 53) (dyadic c) (dyadic a * (dyadic b)⁻¹) := by
  have hdigits : 0 < b.1 := by
    refine Nat.pos_of_ne_zero fun hzero => ?_
    rw [dyadic, hzero, Nat.cast_zero, zero_mul] at hb
    exact lt_irrefl _ hb
  obtain ⟨hden, hratio⟩ := scaled_swapped hdigits a.1 (a.2 - b.2)
  have hvalue : dyadic a * (dyadic b)⁻¹ = (a.1 : ℚ) / b.1 * 2 ^ (a.2 - b.2) := by
    rw [← div_eq_mul_inv, dyadic, dyadic, zpow_sub₀ two_ne_zero, mul_div_mul_comm]
  rw [hvalue, ← hratio] at h ⊢
  exact exists_double hden h

theorem moderate_ten_pow {k : Nat} (hk : k ≤ 100) : Moderate 400 (10 ^ k) := by
  refine .of_one_le (one_le_pow₀ (by norm_num)) ?_ (by decide)
  calc (10 : ℚ) ^ k ≤ 10 ^ 100 := pow_le_pow_right₀ (by norm_num) hk
    _ ≤ (2 ^ 4) ^ 100 := by
      gcongr
      norm_num
    _ = 2 ^ (400 : Int) := by
      rw [← pow_mul]
      exact (zpow_natCast 2 400).symm

theorem exists_powerOfTen {k : Nat} (hk : k ≤ 100) :
    ∃ p, powerOfTen k = some p ∧ Near (1 / 2 ^ 53) (dyadic p) (10 ^ k) ∧ Moderate 401 (dyadic p) := by
  have hvalue : ((Nat.pow 10 k : Nat) : ℚ) = 10 ^ k := by
    exact_mod_cast rfl
  have hmoderate := moderate_ten_pow hk
  obtain ⟨p, hp, hnear⟩ := exists_double_natCast (hvalue ▸ hmoderate.mono (by decide))
  rw [hvalue] at hnear
  exact ⟨p, hp, hnear, hmoderate.of_near hnear (by norm_num)⟩

end Arithmetic

section ToDouble

variable {n : Nat} {j : Int}

/-- The 64-bit value of a decimal of at most twenty digits and some hundred places. -/
theorem exists_toDouble? (hpos : 0 < n) (hlt : n < 2 ^ 64) (hlow : -100 ≤ j) (hhigh : j ≤ 100) :
    ∃ a, toDouble? ⟨n, j⟩ = some a ∧ Near (1 / 2 ^ 50) (dyadic a) (n * 10 ^ j) := by
  have hmoderate : Moderate 64 (n : ℚ) :=
    .of_one_le (by exact_mod_cast hpos) (by exact_mod_cast hlt.le) (by decide)
  obtain ⟨a, ha, hanear⟩ := exists_double_natCast (hmoderate.mono (by decide))
  have hamoderate : Moderate 65 (dyadic a) := hmoderate.of_near hanear (by norm_num)
  have hazero : a.1 ≠ 0 := by
    intro hzero
    have := hamoderate.pos
    rw [dyadic, hzero, Nat.cast_zero, zero_mul] at this
    exact lt_irrefl _ this
  simp only [toDouble?, ha]
  cases j with
  | ofNat k =>
      rw [Int.ofNat_eq_natCast] at hhigh
      obtain ⟨p, hp, hpnear, hpmoderate⟩ := @exists_powerOfTen k (by omega)
      obtain ⟨c, hc, hcnear⟩ := exists_product ((hamoderate.mul hpmoderate).mono (by decide))
      have hlargest : k ≤ largestPower := by
        unfold largestPower
        omega
      have hproduct := hanear.mul hpnear hmoderate.pos.le hpmoderate.pos.le (by norm_num)
      have hresult := hcnear.trans hproduct (by norm_num)
      refine ⟨c, ?_, ?_⟩
      · simp only [Option.bind_eq_bind, Option.bind_some, if_neg hazero, if_pos hlargest, hp, hc]
      · rw [Int.ofNat_eq_natCast, zpow_natCast]
        exact hresult.mono (by norm_num) (by positivity)
  | negSucc k =>
      obtain ⟨p, hp, hpnear, hpmoderate⟩ := @exists_powerOfTen (k + 1) (by omega)
      obtain ⟨c, hc, hcnear⟩ := exists_quotient hpmoderate.pos
        ((hamoderate.mul hpmoderate.inv).mono (by decide))
      have hlargest : k + 1 ≤ largestPower := by
        unfold largestPower
        omega
      have hinverse := hpnear.inv (by positivity) (by norm_num)
      have hquotient := hanear.mul hinverse hmoderate.pos.le hpmoderate.inv.pos.le (by norm_num)
      have hresult := hcnear.trans hquotient (by norm_num)
      refine ⟨c, ?_, ?_⟩
      · simp only [dividedByPower, Option.bind_eq_bind, Option.bind_some, if_pos hlargest, hp, hc]
      · rw [zpow_negSucc]
        exact hresult.mono (by norm_num) (by positivity)

/-- Decimals that are read as a given number: those that agree with it to nine digits. -/
theorem toSingle?_of_close {m : Nat} {e : Int} (negative : Bool) (hlegal : Significand m e)
    (hm : 0 < m) (hpos : 0 < n) (hlt : n < 2 ^ 64) (hlow : -100 ≤ j) (hhigh : j ≤ 100)
    (hbelow : (n * 10 ^ j : ℚ) ≤ m * 2 ^ e)
    (habove : (m * 2 ^ e : ℚ) ≤ n * 10 ^ j * (1 + 1 / 10 ^ 9)) :
    toSingle? negative ⟨n, j⟩ = some (Binary32.ofMagnitude negative (some (m, e))) := by
  obtain ⟨a, ha, hnear⟩ := exists_toDouble? hpos hlt hlow hhigh
  obtain ⟨hden, hratio⟩ := scaled_swapped Nat.one_pos a.1 a.2
  have hpositive : (0 : ℚ) < n * 10 ^ j := by
    positivity
  have hclose : Near (1 / 10 ^ 9) (n * 10 ^ j) (m * 2 ^ e) := by
    rw [Near, abs_sub_comm, abs_of_nonneg (sub_nonneg.mpr hbelow)]
    linarith
  have hresult : Near (1 / 2 ^ 27) (dyadic a) (m * 2 ^ e) :=
    (hnear.trans hclose (by norm_num)).mono (by norm_num) (by positivity)
  have hvalue : dyadic a = (a.1 : ℚ) / (1 : Nat) * 2 ^ a.2 := by
    rw [Nat.cast_one, div_one, dyadic]
  rw [hvalue, ← hratio] at hresult
  rw [toSingle?, ha, Option.map_some]
  exact congrArg some (Binary32.ofMagnitude_nearest negative hden hlegal hm hresult)

end ToDouble

/-- A decimal without a digit other than zero is read as a zero. -/
theorem toSingle?_zero (negative : Bool) {j : Int} (hlow : -100 ≤ j) :
    toSingle? negative ⟨0, j⟩ = some (Binary32.ofMagnitude negative (some (0, -149))) := by
  have hdouble : toDouble? ⟨0, j⟩ = some (0, double.lowest) := by
    cases j with
    | ofNat k => rfl
    | negSucc k =>
        obtain ⟨p, hp, -⟩ := @exists_powerOfTen (k + 1) (by omega)
        have hlargest : k + 1 ≤ largestPower := by
          unfold largestPower
          omega
        have hquotient : quotient (0, double.lowest) p = some (0, double.lowest) := by
          rw [quotient]
          cases double.lowest - p.2 with
          | ofNat i => simp only [scaled, Nat.zero_shiftLeft, nearest_zero]
          | negSucc i => simp only [scaled, nearest_zero]
        simp only [toDouble?, dividedByPower, nearest_zero, Option.bind_eq_bind, Option.bind_some,
          if_pos hlargest, hp, hquotient]
  rw [toSingle?, hdouble]
  rfl

end Decimal
end Penumbra
