import Mathlib
import Penumbra.Proofs.Numeric.Values

/-!
# Rounded results

A rational is rounded to the 32-bit format with an error of half a unit, and no number of the format
comes to lie between the rational and the result: what is known of the rational by comparison with
numbers of the format is known of the result.

**Results**

* `Representable`, `Representable.le_shrunk`: the values of the format, and the gaps between them.
* `Nearest`: a significand and an exponent next to a rational.
* `RoundedTo`, `Nearest.roundedTo`: what is known of a value that a rational is rounded to.
-/

namespace Penumbra

open BinaryFormat (two_zpow_pos)

/-- The value of a number of the 32-bit format, or that of infinity. -/
def Representable (g : ℚ) : Prop :=
  |g| ≤ 2 ^ 128 ∧ ∃ (m : Nat) (e : Int), m ≤ 16777216 ∧ -149 ≤ e ∧ |g| = m * 2 ^ e

/-- A significand and an exponent next to a rational, with as many digits as the format keeps. -/
structure Nearest (q : ℚ) (m : Nat) (e : Int) : Prop extends BinaryFormat.single.Keeps q e where
  near : |(m : ℚ) - q / 2 ^ e| ≤ 1 / 2

/-- A value that a rational is rounded to: numbers of the format are on the same side of both, and
inside the range the error is at most half a unit. -/
structure RoundedTo (v q : ℚ) : Prop where
  le_of_le : ∀ {g : ℚ}, Representable g → g ≤ q → g ≤ v
  ge_of_ge : ∀ {g : ℚ}, Representable g → q ≤ g → v ≤ g
  near : |v| < 2 ^ 128 → |v - q| ≤ |q| / 2 ^ 24 + 1 / 2 ^ 150

section Powers

/-- A magnitude written with a lower exponent. -/
theorem exists_lower {m : Nat} {e e' : Int} (h : e ≤ e') :
    ∃ n : Nat, (m : ℚ) * 2 ^ e' = n * 2 ^ e := by
  refine ⟨m * 2 ^ (e' - e).toNat, ?_⟩
  rw [Nat.cast_mul, Nat.cast_pow, Nat.cast_two, mul_assoc, ← zpow_natCast, ← zpow_add₀ two_ne_zero]
  congr 2
  omega

/-- A magnitude below another one is less by at least a unit of their exponent. -/
theorem add_unit_le {n n' : Nat} {e : Int} (h : (n : ℚ) * 2 ^ e < n' * 2 ^ e) :
    (n : ℚ) * 2 ^ e + 2 ^ e ≤ n' * 2 ^ e := by
  have hlt : n < n' := by
    exact_mod_cast (mul_lt_mul_iff_left₀ (two_zpow_pos e)).mp h
  have hle : (n : ℚ) + 1 ≤ n' := by
    exact_mod_cast hlt
  calc (n : ℚ) * 2 ^ e + 2 ^ e = (n + 1) * 2 ^ e := by
        ring
    _ ≤ n' * 2 ^ e := mul_le_mul_of_nonneg_right hle (two_zpow_pos e).le

/-- What fits below an exponent is at most half of what has all its digits at that exponent. -/
theorem short_le_half {m : Nat} {e e' : Int} (hm : m ≤ 16777216) (h : e' < e) :
    (m : ℚ) * 2 ^ e' ≤ 8388608 * 2 ^ e := by
  calc (m : ℚ) * 2 ^ e' ≤ 16777216 * 2 ^ e' := by
        gcongr
        exact_mod_cast hm
    _ ≤ 16777216 * 2 ^ (e - 1) := by
        gcongr
        · norm_num
        · omega
    _ = 8388608 * 2 ^ e := by
        rw [zpow_sub_one₀ two_ne_zero]
        ring

end Powers

namespace Representable

variable {g h : ℚ}

theorem neg (hg : Representable g) : Representable (-g) := by
  rwa [Representable, abs_neg]

theorem abs (hg : Representable g) : Representable |g| := by
  rwa [Representable, abs_abs]

theorem of_abs (hg : Representable |g|) : Representable g := by
  rwa [Representable, abs_abs] at hg

theorem of_magnitude {m : Nat} {e : Int} (hm : m ≤ 16777216) (he : -149 ≤ e)
    (hlimit : (m : ℚ) * 2 ^ e ≤ 2 ^ 128) : Representable (m * 2 ^ e) := by
  have hsize : |(m : ℚ) * 2 ^ e| = m * 2 ^ e := abs_of_nonneg (by positivity)
  exact ⟨hsize.le.trans hlimit, m, e, hm, he, hsize⟩

theorem two_zpow {k : Int} (hlow : -149 ≤ k) (hhigh : k ≤ 128) : Representable (2 ^ k) := by
  have hlimit : ((1 : Nat) : ℚ) * 2 ^ k ≤ 2 ^ 128 := by
    rw [Nat.cast_one, one_mul, ← zpow_natCast]
    exact zpow_le_zpow_right₀ one_le_two hhigh
  have hpower := of_magnitude (by norm_num) hlow hlimit
  rwa [Nat.cast_one, one_mul] at hpower

theorem inv_two_pow {k : Nat} (hk : k ≤ 149) : Representable (1 / 2 ^ k) := by
  have hpower := @two_zpow (-k) (by omega) (by omega)
  rwa [zpow_neg, zpow_natCast, ← one_div] at hpower

theorem limit : Representable (2 ^ 128) := by
  have hpower := @two_zpow 128 (by norm_num) le_rfl
  rwa [zpow_ofNat] at hpower

theorem zero : Representable 0 := by
  have hzero := @of_magnitude 0 0 (by norm_num) (by norm_num) (by norm_num)
  rwa [Nat.cast_zero, zero_mul] at hzero

theorem one : Representable 1 := by
  have hone := @two_zpow 0 (by norm_num) (by norm_num)
  rwa [zpow_zero] at hone

/-- A positive one, with all its digits. -/
theorem exists_digits (hg : Representable g) (hpos : 0 < g) :
    ∃ (m : Nat) (e : Int), m ≤ 16777216 ∧ -149 ≤ e ∧ g = m * 2 ^ e ∧
      (e = -149 ∨ 8388608 < m) := by
  obtain ⟨-, m, e, hm, he, heq⟩ := hg
  rw [abs_of_pos hpos] at heq
  obtain ⟨k, rfl⟩ : ∃ k : Nat, e = -149 + k := ⟨(e + 149).toNat, by omega⟩
  -- Digits are appended as long as there is room for one and the exponent can be lowered.
  induction k generalizing m with
  | zero => exact ⟨m, _, hm, he, heq, Or.inl rfl⟩
  | succ k ih =>
      rcases Nat.lt_or_ge 8388608 m with hlong | hshort
      · exact ⟨m, _, hm, he, heq, Or.inr hlong⟩
      · refine ih (2 * m) (by omega) (by omega) ?_
        rw [heq, Nat.cast_succ, ← add_assoc, zpow_add_one₀ two_ne_zero]
        push_cast
        ring

/-- One below another is less by a part of the larger one. -/
theorem le_shrunk (hg : Representable g) (hh : Representable h) (hpos : 0 < h) (hlt : g < h) :
    g ≤ h * (1 - 1 / 2 ^ 24) := by
  rcases le_or_gt g 0 with hneg | hgpos
  · exact hneg.trans (mul_nonneg hpos.le (by norm_num))
  obtain ⟨m, e, hm, he, rfl, hdigits⟩ := hh.exists_digits hpos
  obtain ⟨-, m', e', hm', he', heq⟩ := hg
  rw [abs_of_pos hgpos] at heq
  have hunit : (m : ℚ) * 2 ^ e * (1 / 2 ^ 24) ≤ 2 ^ e := by
    have hcount : (m : ℚ) ≤ 16777216 := by
      exact_mod_cast hm
    nlinarith [two_zpow_pos e]
  suffices hless : g + 2 ^ e ≤ m * 2 ^ e by linarith
  rcases le_or_gt e e' with habove | hbelow
  · obtain ⟨n, hn⟩ := @exists_lower m' e e' habove
    rw [heq, hn] at hlt ⊢
    exact add_unit_le hlt
  · have hlong : 8388608 < m := hdigits.resolve_left (by omega)
    have hcount : (8388608 : ℚ) + 1 ≤ m := by
      exact_mod_cast hlong
    calc g + 2 ^ e ≤ 8388608 * 2 ^ e + 2 ^ e := by
          rw [heq, add_le_add_iff_right]
          exact short_le_half hm' hbelow
      _ = (8388608 + 1) * 2 ^ e := by
          ring
      _ ≤ m * 2 ^ e := mul_le_mul_of_nonneg_right hcount (two_zpow_pos e).le

end Representable

namespace Nearest

variable {q g : ℚ} {m : Nat} {e : Int}

theorem natCast_le {n : Nat} (h : Nearest q m e) (hn : (n : ℚ) * 2 ^ e ≤ q) : n ≤ m := by
  have hquotient : (n : ℚ) ≤ q / 2 ^ e := (le_div_iff₀ (two_zpow_pos e)).mpr hn
  have hlt : (n : ℚ) < m + 1 := by
    linarith [(abs_le.mp h.near).1]
  exact Nat.le_of_lt_succ (by exact_mod_cast hlt)

theorem le_natCast {n : Nat} (h : Nearest q m e) (hn : q ≤ n * 2 ^ e) : m ≤ n := by
  have hquotient : q / 2 ^ e ≤ n := (div_le_iff₀ (two_zpow_pos e)).mpr hn
  have hlt : (m : ℚ) < n + 1 := by
    linarith [(abs_le.mp h.near).2]
  exact Nat.le_of_lt_succ (by exact_mod_cast hlt)

theorem le_digits (h : Nearest q m e) : m ≤ 16777216 := by
  refine h.le_natCast (h.lt.le.trans (le_of_eq ?_))
  rw [zpow_add₀ two_ne_zero]
  norm_num [BinaryFormat.single]

theorem digits_le (h : Nearest q m e) (he : e ≠ -149) : (8388608 : ℚ) * 2 ^ e ≤ q := by
  refine le_trans (le_of_eq ?_) (h.leading.resolve_left he)
  have hexponent : (BinaryFormat.single.digits + e - 1 : Int) = 23 + e := by
    simp only [BinaryFormat.single]
    omega
  rw [hexponent, zpow_add₀ two_ne_zero]
  norm_num

theorem le_of_representable (h : Nearest q m e) (hg : Representable g) (hle : g ≤ q) :
    g ≤ m * 2 ^ e := by
  rcases le_or_gt g 0 with hneg | hpos
  · exact hneg.trans (by positivity)
  obtain ⟨-, m', e', hm', he', heq⟩ := hg
  rw [abs_of_pos hpos] at heq
  rcases le_or_gt e e' with habove | hbelow
  · obtain ⟨n, hn⟩ := @exists_lower m' e e' habove
    rw [heq, hn] at hle ⊢
    have hcount : (n : ℚ) ≤ m := by
      exact_mod_cast h.natCast_le hle
    exact mul_le_mul_of_nonneg_right hcount (two_zpow_pos e).le
  · have hlong : ((8388608 : Nat) : ℚ) ≤ m := by
      exact_mod_cast h.natCast_le (h.digits_le (by omega))
    calc g ≤ 8388608 * 2 ^ e := heq.trans_le (short_le_half hm' hbelow)
      _ ≤ m * 2 ^ e := mul_le_mul_of_nonneg_right hlong (two_zpow_pos e).le

theorem le_representable (h : Nearest q m e) (hg : Representable g) (hq : 0 ≤ q) (hle : q ≤ g) :
    m * 2 ^ e ≤ g := by
  obtain ⟨-, m', e', hm', he', heq⟩ := hg
  rw [abs_of_nonneg (hq.trans hle)] at heq
  rcases le_or_gt e e' with habove | hbelow
  · obtain ⟨n, hn⟩ := @exists_lower m' e e' habove
    rw [heq, hn] at hle ⊢
    have hcount : (m : ℚ) ≤ n := by
      exact_mod_cast h.le_natCast hle
    exact mul_le_mul_of_nonneg_right hcount (two_zpow_pos e).le
  · -- Below the digits of the exponent there is only the power of two itself.
    have hshort : q ≤ (8388608 : Nat) * 2 ^ e := hle.trans (heq.trans_le (short_le_half hm' hbelow))
    have hcount : (m : ℚ) ≤ 8388608 := by
      exact_mod_cast h.le_natCast hshort
    calc (m : ℚ) * 2 ^ e ≤ 8388608 * 2 ^ e := mul_le_mul_of_nonneg_right hcount (two_zpow_pos e).le
      _ ≤ q := h.digits_le (by omega)
      _ ≤ g := hle

theorem near_value (h : Nearest q m e) (hq : 0 ≤ q) :
    |m * 2 ^ e - q| ≤ |q| / 2 ^ 24 + 1 / 2 ^ 150 := by
  have hpow := two_zpow_pos e
  have herror : |m * 2 ^ e - q| ≤ 2 ^ e / 2 := by
    have hscaled : m * 2 ^ e - q = (m - q / 2 ^ e) * 2 ^ e := by
      rw [sub_mul, div_mul_cancel₀ _ hpow.ne']
    rw [hscaled, abs_mul, abs_of_pos hpow]
    linarith [mul_le_mul_of_nonneg_right h.near hpow.le]
  rw [abs_of_nonneg hq]
  rcases eq_or_ne e (-149) with rfl | he
  · refine herror.trans ?_
    have hunit : ((2 : ℚ) ^ (-149 : Int)) / 2 = 1 / 2 ^ 150 := by
      norm_num
    rw [hunit]
    exact le_add_of_nonneg_left (by positivity)
  · have hdigits := h.digits_le he
    have htiny : (0 : ℚ) ≤ 1 / 2 ^ 150 := by
      positivity
    linarith

/-- What is stored: above the range, infinity. -/
theorem roundedTo (h : Nearest q m e) (hq : 0 ≤ q) : RoundedTo (min (m * 2 ^ e) (2 ^ 128)) q where
  le_of_le hg hle := le_min (h.le_of_representable hg hle) ((le_abs_self _).trans hg.1)
  ge_of_ge hg hle := (min_le_left _ _).trans (h.le_representable hg hq hle)
  near hlt := by
    have hinside : (m : ℚ) * 2 ^ e < 2 ^ 128 := by
      by_contra habove
      rw [min_eq_right (not_lt.mp habove), abs_of_pos (by positivity)] at hlt
      exact lt_irrefl _ hlt
    rw [min_eq_left hinside.le]
    exact h.near_value hq

end Nearest

namespace RoundedTo

variable {v q g : ℚ}

theorem neg (h : RoundedTo v q) : RoundedTo (-v) (-q) where
  le_of_le hg hle := le_neg_of_le_neg (h.ge_of_ge hg.neg (le_neg_of_le_neg hle))
  ge_of_ge hg hle := neg_le_of_neg_le (h.le_of_le hg.neg (neg_le_of_neg_le hle))
  near hlt := by
    rw [abs_neg] at hlt ⊢
    rw [← neg_sub_neg, neg_neg, neg_neg, ← abs_sub_comm]
    exact h.near hlt

theorem refl (v : ℚ) : RoundedTo v v where
  le_of_le _ hle := hle
  ge_of_ge _ hle := hle
  near _ := by
    rw [sub_self, abs_zero]
    positivity

/-- A rational of the format is not rounded. -/
theorem eq_of_representable (h : RoundedTo v q) (hq : Representable q) : v = q :=
  le_antisymm (h.ge_of_ge hq le_rfl) (h.le_of_le hq le_rfl)

end RoundedTo
end Penumbra
