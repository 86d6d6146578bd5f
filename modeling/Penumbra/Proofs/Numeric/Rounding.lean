import Mathlib
import Penumbra.Numeric.Rounding

/-!
# Correct rounding

Rounding to a binary format is stated by the rational value of the quotient that is rounded: the
exponent is the one at which the format keeps all its digits, and the significand is at most half a
unit away.

**Results**

* `BinaryFormat.Rounded`, `BinaryFormat.rounded_of_nearest`: what rounding comes to.
* `BinaryFormat.exists_nearest`: only large quotients are above the range.
* `BinaryFormat.Rounded.near_quotient`: the relative error inside the range.
* `Near`: numbers that are equal up to a relative error, and the error of products and inverses.
* `Moderate`: how far products and inverses stay from the ends of the range.
-/

namespace Penumbra

/-- Equality of positive numbers up to a relative error. -/
def Near (ε q r : ℚ) : Prop := |q - r| ≤ ε * r

namespace Near

variable {ε δ q r s q' r' : ℚ}

theorem mono (h : Near ε q r) (hle : ε ≤ δ) (hr : 0 ≤ r) : Near δ q r :=
  le_trans h (mul_le_mul_of_nonneg_right hle hr)

theorem trans (h : Near ε q r) (h' : Near δ r s) (hε : 0 ≤ ε) : Near (ε + δ + ε * δ) q s := by
  have hr : r ≤ (1 + δ) * s := by
    linarith [(abs_le.mp (h' : |r - s| ≤ δ * s)).2]
  calc |q - s| ≤ |q - r| + |r - s| := abs_sub_le q r s
    _ ≤ ε * r + δ * s := add_le_add h h'
    _ ≤ ε * ((1 + δ) * s) + δ * s := by
        gcongr
    _ = (ε + δ + ε * δ) * s := by
        ring

theorem mul (h : Near ε q r) (h' : Near δ q' r') (hr : 0 ≤ r) (hq' : 0 ≤ q') (hε : 0 ≤ ε) :
    Near (ε + δ + ε * δ) (q * q') (r * r') := by
  have hfirst : Near ε (q * q') (r * q') := by
    rw [Near, ← sub_mul, abs_mul, abs_of_nonneg hq', ← mul_assoc]
    exact mul_le_mul_of_nonneg_right h hq'
  have hsecond : Near δ (r * q') (r * r') := by
    rw [Near, ← mul_sub, abs_mul, abs_of_nonneg hr, mul_left_comm]
    exact mul_le_mul_of_nonneg_left h' hr
  exact hfirst.trans hsecond hε

/-- The inverse has about the same error, as long as this is at most a half. -/
theorem inv (h : Near ε q r) (hr : 0 < r) (hε : ε ≤ 1 / 2) : Near (2 * ε) q⁻¹ r⁻¹ := by
  have hhalf : ε * r ≤ 1 / 2 * r := mul_le_mul_of_nonneg_right hε hr.le
  have hq : r / 2 ≤ q := by
    linarith [(abs_le.mp (h : |q - r| ≤ ε * r)).1]
  have hpos : 0 < q := by
    linarith
  have hnonneg : 0 ≤ ε := nonneg_of_mul_nonneg_left ((abs_nonneg _).trans h) hr
  rw [Near, inv_sub_inv hpos.ne' hr.ne', abs_div, abs_of_pos (mul_pos hpos hr), abs_sub_comm,
    div_le_iff₀ (mul_pos hpos hr)]
  calc |q - r| ≤ ε * r := h
    _ ≤ ε * (2 * q) := by
        gcongr
        linarith
    _ = 2 * ε * r⁻¹ * (q * r) := by
        field_simp

end Near

/-- Positive numbers of at most `k` binary places, before or after the point. -/
structure Moderate (k : Int) (q : ℚ) : Prop where
  low : (2 : ℚ) ^ (-k) ≤ q
  high : q ≤ 2 ^ k

namespace Moderate

variable {j k : Int} {q r ε : ℚ}

theorem pos (h : Moderate k q) : 0 < q := (zpow_pos two_pos _).trans_le h.low

theorem mono (h : Moderate j q) (hle : j ≤ k) : Moderate k q where
  low := (zpow_le_zpow_right₀ one_le_two (neg_le_neg hle)).trans h.low
  high := h.high.trans (zpow_le_zpow_right₀ one_le_two hle)

theorem mul (h : Moderate j q) (h' : Moderate k r) : Moderate (j + k) (q * r) where
  low := by
    rw [neg_add, zpow_add₀ two_ne_zero]
    exact mul_le_mul h.low h'.low (zpow_pos two_pos _).le h.pos.le
  high := by
    rw [zpow_add₀ two_ne_zero]
    exact mul_le_mul h.high h'.high h'.pos.le (zpow_pos two_pos _).le

theorem inv (h : Moderate k q) : Moderate k q⁻¹ where
  low := by
    rw [zpow_neg]
    exact inv_anti₀ h.pos h.high
  high := by
    rw [← inv_inv ((2 : ℚ) ^ k), ← zpow_neg]
    exact inv_anti₀ (zpow_pos two_pos _) h.low

theorem of_near (h : Moderate k r) (hnear : Near ε q r) (hε : ε ≤ 1 / 2) : Moderate (k + 1) q := by
  have hhalf : ε * r ≤ 1 / 2 * r := mul_le_mul_of_nonneg_right hε h.pos.le
  obtain ⟨hbelow, habove⟩ := abs_le.mp (hnear : |q - r| ≤ ε * r)
  constructor
  · rw [neg_add, zpow_add₀ two_ne_zero, zpow_neg_one]
    linarith [h.low]
  · rw [zpow_add_one₀ two_ne_zero]
    linarith [h.high, h.pos]

theorem of_one_le (hq : 1 ≤ q) (hle : q ≤ 2 ^ k) (hk : 0 ≤ k) : Moderate k q where
  low := by
    rw [zpow_neg]
    exact (inv_le_one_of_one_le₀ (one_le_zpow₀ one_le_two hk)).trans hq
  high := hle

end Moderate

section RoundDiv

/-- The rounded quotient is at most a half away. -/
theorem abs_roundDiv_sub_le {num den : Nat} (hden : 0 < den) :
    |(roundDiv num den : ℚ) - num / den| ≤ 1 / 2 := by
  have hsplit : (num : ℚ) / den = (num / den : Nat) + (num % den : Nat) / den := by
    have hdivision : (num : ℚ) = (num / den : Nat) * den + (num % den : Nat) := by
      exact_mod_cast (Nat.div_add_mod' num den).symm
    have hne : (den : ℚ) ≠ 0 := by
      exact_mod_cast hden.ne'
    rw [div_eq_iff hne, add_mul, div_mul_cancel₀ _ hne]
    exact hdivision
  have hpos : (0 : ℚ) < den := by
    exact_mod_cast hden
  have hbelow : ((num % den : Nat) : ℚ) / den < 1 := by
    rw [div_lt_one hpos]
    exact_mod_cast Nat.mod_lt num hden
  have habove : 0 ≤ ((num % den : Nat) : ℚ) / den := by
    positivity
  have htwice : ∀ k : Nat, (2 * k : ℚ) = (2 * k : Nat) := fun k => by
    push_cast
    rfl
  rw [hsplit, roundDiv, abs_le]
  split_ifs with hless hmiddle
  · have hhalf : ((num % den : Nat) : ℚ) / den < 1 / 2 := by
      rw [div_lt_div_iff₀ hpos two_pos, one_mul, mul_comm, htwice]
      exact_mod_cast hless
    constructor <;> linarith
  · have hhalf : ((num % den : Nat) : ℚ) / den = 1 / 2 := by
      rw [div_eq_div_iff hpos.ne' two_ne_zero, one_mul, mul_comm, htwice]
      exact_mod_cast hmiddle
    rw [hhalf]
    rcases Nat.mod_two_eq_zero_or_one (num / den) with heven | hodd
    · rw [heven]
      norm_num
    · rw [hodd]
      norm_num
  · have hhalf : 1 / 2 ≤ ((num % den : Nat) : ℚ) / den := by
      rw [div_le_div_iff₀ two_pos hpos, one_mul, mul_comm _ (2 : ℚ), htwice]
      exact_mod_cast Nat.le_of_not_lt hless
    push_cast
    constructor <;> linarith

end RoundDiv

namespace BinaryFormat

/-- The quotient by a power of two, as a quotient of natural numbers. -/
theorem scaled_ratio (num : Nat) {den : Nat} (hden : 0 < den) (e : Int) :
    0 < (scaled num den e).2 ∧
      ((scaled num den e).1 : ℚ) / (scaled num den e).2 = num / den / 2 ^ e := by
  have hne : (den : ℚ) ≠ 0 := by
    exact_mod_cast hden.ne'
  cases e with
  | ofNat k =>
      simp only [scaled, Nat.shiftLeft_eq]
      refine ⟨by positivity, ?_⟩
      rw [Int.ofNat_eq_natCast, zpow_natCast, div_div]
      push_cast
      rfl
  | negSucc k =>
      simp only [scaled, Nat.shiftLeft_eq]
      refine ⟨hden, ?_⟩
      rw [zpow_negSucc, div_inv_eq_mul]
      push_cast
      ring

theorem scaled_neg (num den : Nat) (e : Int) : scaled den num (-e) = (scaled num den e).swap := by
  cases e with
  | ofNat k =>
      cases k with
      | zero => rfl
      | succ k => rfl
  | negSucc k => rfl

/-- The product by a power of two, with the parts in the other order. -/
theorem scaled_swapped {num : Nat} (hnum : 0 < num) (den : Nat) (e : Int) :
    0 < (scaled num den e).1 ∧
      ((scaled num den e).2 : ℚ) / (scaled num den e).1 = den / num * 2 ^ e := by
  have h := scaled_ratio den hnum (-e)
  rw [scaled_neg, zpow_neg, div_inv_eq_mul] at h
  exact h

variable {f : BinaryFormat} {num den m : Nat} {e : Int}

theorem two_zpow_pos (e : Int) : (0 : ℚ) < 2 ^ e := zpow_pos two_pos e

theorem one_shiftLeft (k : Nat) : ((1 <<< k : Nat) : ℚ) = 2 ^ k := by
  rw [Nat.one_shiftLeft]
  push_cast
  rfl

/-- Whether a scaled quotient has more whole digits than the format keeps. -/
theorem one_shiftLeft_le_iff (hden : 0 < den) :
    1 <<< f.digits ≤ (scaled num den e).1 / (scaled num den e).2 ↔
      (2 : ℚ) ^ (f.digits + e : Int) ≤ num / den := by
  obtain ⟨hpos, hratio⟩ := scaled_ratio num hden e
  rw [Nat.le_div_iff_mul_le hpos, ← @Nat.cast_le ℚ, Nat.cast_mul, one_shiftLeft,
    ← le_div_iff₀ (by exact_mod_cast hpos), hratio, le_div_iff₀ (two_zpow_pos e),
    zpow_add₀ two_ne_zero, zpow_natCast]

/-- The first digit of a quotient, up to one place. -/
theorem log2_bounds (hnum : 0 < num) (hden : 0 < den) :
    (2 : ℚ) ^ ((num.log2 : Int) - den.log2 - 1) ≤ num / den ∧
      (num / den : ℚ) < 2 ^ ((num.log2 : Int) - den.log2 + 1) := by
  have hlow : ∀ n : Nat, 0 < n → (2 : ℚ) ^ (n.log2 : Int) ≤ n := fun n hn => by
    rw [zpow_natCast]
    exact_mod_cast Nat.log2_self_le hn.ne'
  have hhigh : ∀ n : Nat, (n : ℚ) < 2 ^ ((n.log2 : Int) + 1) := fun n => by
    exact_mod_cast @Nat.lt_log2_self n
  have hpos : (0 : ℚ) < den := by
    exact_mod_cast hden
  constructor
  · rw [le_div_iff₀ hpos]
    calc (2 : ℚ) ^ ((num.log2 : Int) - den.log2 - 1) * den
        ≤ 2 ^ ((num.log2 : Int) - den.log2 - 1) * 2 ^ ((den.log2 : Int) + 1) := by
          gcongr
          exact (hhigh den).le
      _ = 2 ^ (num.log2 : Int) := by
          rw [← zpow_add₀ two_ne_zero]
          congr 1
          omega
      _ ≤ num := hlow num hnum
  · rw [div_lt_iff₀ hpos]
    calc (num : ℚ) < 2 ^ ((num.log2 : Int) + 1) := hhigh num
      _ = 2 ^ ((num.log2 : Int) - den.log2 + 1) * 2 ^ (den.log2 : Int) := by
          rw [← zpow_add₀ two_ne_zero]
          congr 1
          omega
      _ ≤ 2 ^ ((num.log2 : Int) - den.log2 + 1) * den := by
          gcongr
          exact hlow den hden

/-- The exponent at which a format keeps all digits that it has, for some value. -/
structure Keeps (f : BinaryFormat) (q : ℚ) (e : Int) : Prop where
  low : f.lowest ≤ e
  lt : q < 2 ^ (f.digits + e : Int)
  leading : e = f.lowest ∨ (2 : ℚ) ^ (f.digits + e - 1 : Int) ≤ q

theorem keeps_exponentOf (f : BinaryFormat) (hnum : 0 < num) (hden : 0 < den) :
    f.Keeps (num / den) (f.exponentOf num den) := by
  obtain ⟨hbelow, habove⟩ := log2_bounds hnum hden
  have hfirst : f.firstExponent num den = f.lowest ∧
        (num.log2 : Int) - den.log2 - f.digits ≤ f.lowest ∨
      f.firstExponent num den = (num.log2 : Int) - den.log2 - f.digits ∧
        f.lowest ≤ (num.log2 : Int) - den.log2 - f.digits := by
    rw [firstExponent]
    omega
  have hexponent : f.exponentOf num den =
      if (2 : ℚ) ^ (f.digits + f.firstExponent num den : Int) ≤ num / den
      then f.firstExponent num den + 1 else f.firstExponent num den :=
    if_congr (one_shiftLeft_le_iff hden) rfl rfl
  rw [hexponent]
  split_ifs with hlong
  · refine ⟨by omega, ?_, Or.inr ?_⟩
    · refine habove.trans_le (zpow_le_zpow_right₀ one_le_two ?_)
      omega
    · rwa [← add_assoc, add_sub_cancel_right]
  · refine ⟨by omega, not_le.mp hlong, ?_⟩
    rcases hfirst with ⟨heq, -⟩ | ⟨heq, -⟩
    · exact Or.inl heq
    · refine Or.inr ((zpow_le_zpow_right₀ one_le_two ?_).trans hbelow)
      omega

/-- A significand and an exponent of the format next to some value. -/
structure Rounded (f : BinaryFormat) (q : ℚ) (m : Nat) (e : Int) : Prop extends f.Keeps q e where
  high : e ≤ f.highest
  fits : e = f.highest → m < 2 ^ f.digits
  near : |(m : ℚ) - q / 2 ^ e| ≤ 1 / 2

theorem nearest_zero (f : BinaryFormat) (den : Nat) : f.nearest 0 den = some (0, f.lowest) := rfl

theorem nearest_of_pos (f : BinaryFormat) (hnum : 0 < num) (hden : 0 < den) :
    ∃ (m : Nat) (e : Int), f.Keeps (num / den) e ∧ |(m : ℚ) - num / den / 2 ^ e| ≤ 1 / 2 ∧
      f.nearest num den =
        if f.highest < e ∨ (e = f.highest ∧ 2 ^ f.digits ≤ m) then none else some (m, e) := by
  obtain ⟨hpos, hratio⟩ := scaled_ratio num hden (f.exponentOf num den)
  refine ⟨_, _, keeps_exponentOf f hnum hden, hratio ▸ abs_roundDiv_sub_le hpos, ?_⟩
  rw [nearest, if_neg hnum.ne', Nat.one_shiftLeft]

theorem rounded_of_nearest (hrange : f.lowest ≤ f.highest) (hden : 0 < den)
    (h : f.nearest num den = some (m, e)) : f.Rounded (num / den) m e := by
  rcases Nat.eq_zero_or_pos num with rfl | hnum
  · rw [nearest_zero, Option.some.injEq, Prod.mk.injEq] at h
    obtain ⟨rfl, rfl⟩ := h
    rw [Nat.cast_zero, zero_div]
    exact ⟨⟨Int.le_refl _, two_zpow_pos _, Or.inl rfl⟩, hrange, fun _ => Nat.two_pow_pos _, by
      norm_num⟩
  · obtain ⟨m', e', hkeeps, hnear, heq⟩ := nearest_of_pos f hnum hden
    rw [heq] at h
    split_ifs at h with habove
    obtain ⟨rfl, rfl⟩ := Prod.mk.inj (Option.some.inj h)
    exact ⟨hkeeps, by omega, by omega, hnear⟩

theorem Rounded.le_two_pow {q : ℚ} (h : f.Rounded q m e) : m ≤ 2 ^ f.digits := by
  have hquotient : q / 2 ^ e < 2 ^ f.digits := by
    rw [div_lt_iff₀ (two_zpow_pos e), ← zpow_natCast, ← zpow_add₀ two_ne_zero]
    exact h.lt
  have hbelow : (m : ℚ) < (2 ^ f.digits : Nat) + 1 := by
    push_cast
    linarith [(abs_le.mp h.near).2]
  exact Nat.le_of_lt_succ (by exact_mod_cast hbelow)

/-- A quotient with a digit to spare is not above the range. -/
theorem exists_nearest (hrange : f.lowest ≤ f.highest) (hden : 0 < den)
    (hlt : (num / den : ℚ) < 2 ^ (f.digits + f.highest - 1 : Int)) :
    ∃ m e, f.nearest num den = some (m, e) ∧ f.Rounded (num / den) m e := by
  suffices h : ∃ m e, f.nearest num den = some (m, e) by
    obtain ⟨m, e, heq⟩ := h
    exact ⟨m, e, heq, rounded_of_nearest hrange hden heq⟩
  rcases Nat.eq_zero_or_pos num with rfl | hnum
  · exact ⟨_, _, nearest_zero f den⟩
  obtain ⟨m, e, hkeeps, hnear, heq⟩ := nearest_of_pos f hnum hden
  refine ⟨m, e, heq.trans (if_neg ?_)⟩
  rintro (habove | ⟨rfl, hlong⟩)
  · rcases hkeeps.leading with rfl | hleading
    · omega
    · have hpow : (2 : ℚ) ^ (f.digits + f.highest - 1 : Int) ≤ 2 ^ (f.digits + e - 1 : Int) :=
        zpow_le_zpow_right₀ one_le_two (by omega)
      exact absurd (hpow.trans hleading) (not_le.mpr hlt)
  · have hhalf : (num : ℚ) / den / 2 ^ f.highest < 2 ^ f.digits / 2 := by
      rw [div_lt_iff₀ (two_zpow_pos _)]
      calc (num / den : ℚ) < 2 ^ (f.digits + f.highest - 1 : Int) := hlt
        _ = 2 ^ f.digits / 2 * 2 ^ f.highest := by
          rw [zpow_sub_one₀ two_ne_zero, zpow_add₀ two_ne_zero, zpow_natCast]
          ring
    have hsignificand : (2 : ℚ) ^ f.digits ≤ m := by
      exact_mod_cast hlong
    have hone : (1 : ℚ) ≤ 2 ^ f.digits := one_le_pow₀ one_le_two
    linarith [(abs_le.mp hnear).2]

/-- Inside the range, the error is at most half a unit of the last digit. -/
theorem Rounded.near_quotient {q : ℚ} (h : f.Rounded q m e)
    (hq : (2 : ℚ) ^ (f.digits + f.lowest - 1 : Int) ≤ q) :
    Near (1 / 2 ^ f.digits) (m * 2 ^ e) q := by
  have hleading : (2 : ℚ) ^ (f.digits + e - 1 : Int) ≤ q := h.leading.elim (fun heq => heq ▸ hq) id
  have herror : (m : ℚ) * 2 ^ e - q = (m - q / 2 ^ e) * 2 ^ e := by
    rw [sub_mul, div_mul_cancel₀ _ (two_zpow_pos e).ne']
  rw [Near, herror, abs_mul, abs_of_pos (two_zpow_pos e), one_div_mul_eq_div,
    le_div_iff₀ (by positivity)]
  calc |(m : ℚ) - q / 2 ^ e| * 2 ^ e * 2 ^ f.digits
      ≤ 1 / 2 * 2 ^ e * 2 ^ f.digits := by
        gcongr
        exact h.near
    _ = 2 ^ (f.digits + e - 1 : Int) := by
        rw [zpow_sub_one₀ two_ne_zero, zpow_add₀ two_ne_zero, zpow_natCast]
        ring
    _ ≤ q := hleading

end BinaryFormat
end Penumbra
