import Mathlib
import Penumbra.Numeric.Binary32
import Penumbra.Proofs.Numeric.Packing

/-!
# Operations on the digits of numbers

The result of an operation is computed with more digits than there is room for, or with a note about
those that were left out, and then rounded.  So it is the exact result rounded once.

**Results**

* `UnpackedFloat.IsFinite`, `UnpackedFloat.isFinite_iff`: finite numbers, by their value.
* `UnpackedFloat.rounds_add`, `UnpackedFloat.rounds_mul`: sums and products, which are exact at first.
* `UnpackedFloat.represents_quotient`, `UnpackedFloat.rounds_div`: quotients, by what is left over.
* `UnpackedFloat.rounds_sqrt`: roots.
-/

namespace Penumbra

open Float.Model
open BinaryFormat (two_zpow_pos)

namespace UnpackedFloat

/-- A number of the format that is not infinite. -/
def IsFinite : UnpackedFloat → Prop
  | .finite _ m e _ => Significand m e
  | .zero _ => True
  | _ => False

variable {u v : UnpackedFloat} {s s' : UnpackedFloat.Sign} {m m' : Nat} {e e' : Int}

theorem IsFinite.canonical (h : IsFinite u) : Canonical u := by
  cases u with
  | infinity s => exact h.elim
  | notANumber => exact h.elim
  | zero s => trivial
  | finite s m e hm => exact h

theorem abs_withSign (s : UnpackedFloat.Sign) (q : ℚ) : |withSign s q| = |q| := by
  cases s
  · exact abs_neg q
  · rfl

/-- Finite numbers are those with a value inside the range. -/
theorem isFinite_iff : IsFinite u ↔ Canonical u ∧ |value u| < 2 ^ 128 := by
  rcases u with s | _ | s | ⟨s, m, e, hm⟩
  · rw [value_infinity, abs_withSign]
    exact iff_of_false id fun h => (h.2.trans_le (le_abs_self _)).false
  · exact iff_of_false id fun h => h.1
  · rw [value_zero, abs_zero]
    exact iff_of_true trivial ⟨trivial, by positivity⟩
  · rw [value_finite, abs_withSign, abs_of_pos (magnitude_pos hm e)]
    exact (and_iff_left_of_imp Significand.lt_limit).symm

section Sums

theorem neg_isFinite (h : IsFinite u) : IsFinite u.neg := by
  cases u <;> exact h

theorem value_neg (u : UnpackedFloat) : value u.neg = -value u := by
  rcases u with ⟨_ | _⟩ | _ | s | ⟨_ | _, m, e, hm⟩ <;>
    first
    | rfl
    | exact neg_zero.symm
    | exact (neg_neg _).symm

/-- A significand with a sign, at a lower exponent. -/
theorem apply_value (s : UnpackedFloat.Sign) (m : Nat) (h : e' ≤ e) :
    ((s.apply ((m <<< (e - e').toNat : Nat) : Int) : Int) : ℚ) * 2 ^ e' = withSign s (m * 2 ^ e) := by
  have hvalue := shiftLeft_value m (e - e').toNat e
  rw [Int.toNat_of_nonneg (sub_nonneg.mpr h), sub_sub_cancel] at hvalue
  cases s with
  | positive => exact_mod_cast hvalue
  | negative =>
      change ((-((m <<< (e - e').toNat : Nat) : Int) : Int) : ℚ) * 2 ^ e' = -(m * 2 ^ e)
      rw [← hvalue, Int.cast_neg, Int.cast_natCast, neg_mul]

theorem rounds_add (hu : IsFinite u) (hv : IsFinite v) :
    Rounds (stored (.add .binary32 u v)) (value u + value v) := by
  rcases u with _ | _ | s | ⟨s, m, e, hm⟩
  · exact hu.elim
  · exact hu.elim
  · rcases v with _ | _ | s' | ⟨s', m', e', hm'⟩
    · exact hv.elim
    · exact hv.elim
    · have hzero : ∃ t, UnpackedFloat.add .binary32 (.zero s) (.zero s') = .zero t := by
        cases s <;> cases s' <;> exact ⟨_, rfl⟩
      obtain ⟨t, ht⟩ := hzero
      rw [ht, value_zero, value_zero, add_zero]
      exact @rounds_stored (.zero t) trivial
    · rw [value_zero, zero_add]
      exact rounds_stored hv.canonical
  · rcases v with _ | _ | s' | ⟨s', m', e', hm'⟩
    · exact hv.elim
    · exact hv.elim
    · rw [value_zero, add_zero]
      exact rounds_stored hu.canonical
    · have hsum := rounds_normalize (s.apply ((m <<< (e - min e e').toNat : Nat) : Int) +
        s'.apply ((m' <<< (e' - min e e').toNat : Nat) : Int)) (min e e')
      rw [Int.cast_add, add_mul, apply_value s m (min_le_left e e'),
        apply_value s' m' (min_le_right e e')] at hsum
      rw [value_finite, value_finite]
      exact hsum

theorem sub_eq_add_neg (u v : UnpackedFloat) :
    UnpackedFloat.sub .binary32 u v = UnpackedFloat.add .binary32 u v.neg := by
  have happly : ∀ (s : UnpackedFloat.Sign) (n : Int), (-s).apply n = -s.apply n := by
    rintro (_ | _) n
    · exact (neg_neg n).symm
    · rfl
  rcases u with s | _ | s | ⟨s, m, e, hm⟩ <;> rcases v with s' | _ | s' | ⟨s', m', e', hm'⟩ <;>
    first
    | rfl
    | simp only [UnpackedFloat.sub, UnpackedFloat.add, UnpackedFloat.neg, happly, ← Int.sub_eq_add_neg]

end Sums

section Products

theorem withSign_div (q q' : ℚ) : withSign (s / s') (q / q') = withSign s q / withSign s' q' := by
  cases s <;> cases s'
  · exact (neg_div_neg_eq q q').symm
  · exact (neg_div q' q).symm
  · exact (div_neg q).symm
  · rfl

theorem rounds_mul (hu : IsFinite u) (hv : IsFinite v) :
    Rounds (stored (.mul .binary32 u v)) (value u * value v) := by
  rcases u with _ | _ | s | ⟨s, m, e, hm⟩
  · exact hu.elim
  · exact hu.elim
  · obtain ⟨t, ht⟩ : ∃ t, UnpackedFloat.mul .binary32 (.zero s) v = .zero t := by
      rcases v with _ | _ | s' | ⟨s', m', e', hm'⟩
      · exact hv.elim
      · exact hv.elim
      · exact ⟨_, rfl⟩
      · exact ⟨_, rfl⟩
    rw [ht, value_zero, zero_mul]
    exact @rounds_stored (.zero t) trivial
  · rcases v with _ | _ | s' | ⟨s', m', e', hm'⟩
    · exact hv.elim
    · exact hv.elim
    · rw [value_zero, mul_zero]
      exact @rounds_stored (.zero (s * s')) trivial
    · have hsize : e + e' ≤ -149 ∨ 8388608 ≤ m * m' := by
        rcases hu.leading with hlow | hlong
        · rcases hv.leading with hlow' | hlong'
          · omega
          · exact Or.inr (hlong'.trans (Nat.le_mul_of_pos_left m' hm))
        · exact Or.inr (hlong.trans (Nat.le_mul_of_pos_right m hm'))
      have hproduct : ((m : ℚ) * 2 ^ e * (m' * 2 ^ e')) / 2 ^ (e + e') = (m * m' : Nat) := by
        rw [div_eq_iff (two_zpow_pos _).ne', zpow_add₀ two_ne_zero]
        push_cast
        ring
      rw [value_finite, value_finite, ← withSign_mul]
      refine rounds_roundWithAccuracy (s * s') hsize ?_
      rw [hproduct]
      exact represents_exact _

end Products

section Quotients

/-- A quotient of whole numbers with what is known of its rest. -/
theorem represents_quotient (n : Nat) {d : Nat} (hd : 0 < d) :
    Represents (.ofMantissaAndAccuracy (n / d) (UnpackedFloat.accuracyOfFraction (n % d) d))
      (n / d) := by
  have hpos : (0 : ℚ) < d := by
    exact_mod_cast hd
  have hsplit : (n : ℚ) / d = (n / d : Nat) + (n % d : Nat) / d := by
    have hdivision : (n : ℚ) = (n / d : Nat) * d + (n % d : Nat) := by
      exact_mod_cast (Nat.div_add_mod' n d).symm
    rw [div_eq_iff hpos.ne', add_mul, div_mul_cancel₀ _ hpos.ne']
    exact hdivision
  have hbelow : ((n % d : Nat) : ℚ) / d < 1 := by
    rw [div_lt_one hpos]
    exact_mod_cast Nat.mod_lt n hd
  rw [hsplit]
  generalize n / d = k
  generalize n % d = r at *
  rcases Nat.eq_zero_or_pos r with rfl | hr
  · rw [Nat.cast_zero, zero_div, add_zero]
    exact represents_exact k
  have hrest : (0 : ℚ) < r / d := by
    positivity
  rw [UnpackedFloat.accuracyOfFraction, if_neg hr.ne']
  rcases lt_trichotomy (2 * r) d with hless | hmiddle | hmore
  · have hhalf : (r : ℚ) / d < 1 / 2 := by
      rw [div_lt_div_iff₀ hpos two_pos, one_mul, mul_comm]
      exact_mod_cast hless
    rw [compare_lt_iff_lt.mpr hless]
    change (k : ℚ) < k + r / d ∧ k + r / d < (k : ℚ) + 1 / 2
    constructor <;> linarith
  · have hhalf : (r : ℚ) / d = 1 / 2 := by
      rw [div_eq_div_iff hpos.ne' two_ne_zero, one_mul, mul_comm]
      exact_mod_cast hmiddle
    rw [compare_eq_iff_eq.mpr hmiddle]
    change (k : ℚ) + r / d = k + 1 / 2
    rw [hhalf]
  · have hhalf : 1 / 2 < (r : ℚ) / d := by
      rw [div_lt_div_iff₀ two_pos hpos, one_mul, mul_comm (r : ℚ)]
      exact_mod_cast hmore
    rw [compare_gt_iff_gt.mpr hmore]
    change (k : ℚ) + 1 / 2 < k + r / d ∧ k + r / d < (k : ℚ) + 1
    constructor <;> linarith

/-- The exponent of a quotient before it is rounded. -/
def quotientExponent (m : Nat) (e : Int) (m' : Nat) (e' : Int) : Int :=
  min (e - e') (max ((m.log2 : Int) + 1 + e - (m'.log2 + 1 + e') - 24) (-149))

/-- Enough digits are computed of a quotient. -/
theorem quotient_long (hm : 0 < m) (hm' : 0 < m') :
    quotientExponent m e m' e' ≤ -149 ∨
      8388608 ≤ m <<< (e - e' - quotientExponent m e m' e').toNat / m' := by
  have hshift : quotientExponent m e m' e' ≤ -149 ∨
      m'.log2 + 1 + 23 ≤ m.log2 + (e - e' - quotientExponent m e m' e').toNat := by
    simp only [quotientExponent]
    omega
  refine hshift.imp_right fun hlog => (Nat.le_div_iff_mul_le hm').mpr ?_
  generalize (e - e' - quotientExponent m e m' e').toNat = k at hlog
  calc 8388608 * m' ≤ 2 ^ 23 * 2 ^ (m'.log2 + 1) :=
        Nat.mul_le_mul_left _ Nat.lt_log2_self.le
    _ = 2 ^ (m'.log2 + 1 + 23) := by
        rw [Nat.pow_add 2 (m'.log2 + 1), Nat.mul_comm]
    _ ≤ 2 ^ (m.log2 + k) := Nat.pow_le_pow_right Nat.two_pos hlog
    _ = 2 ^ m.log2 * 2 ^ k := pow_add _ _ _
    _ ≤ m * 2 ^ k := Nat.mul_le_mul_right _ (Nat.log2_self_le hm.ne')
    _ = m <<< k := (Nat.shiftLeft_eq m k).symm

theorem rounds_div (hu : IsFinite u) (hv : IsFinite v) (hne : value v ≠ 0) :
    Rounds (stored (.div .binary32 u v)) (value u / value v) := by
  rcases v with _ | _ | s' | ⟨s', m', e', hm'⟩
  · exact hv.elim
  · exact hv.elim
  · exact absurd (value_zero s') hne
  rcases u with _ | _ | s | ⟨s, m, e, hm⟩
  · exact hu.elim
  · exact hu.elim
  · rw [value_zero, zero_div]
    exact @rounds_stored (.zero (s / s')) trivial
  · have hsplit : quotientExponent m e m' e' ≤ e - e' := min_le_left _ _
    have hquotient : (m : ℚ) * 2 ^ e / (m' * 2 ^ e') / 2 ^ quotientExponent m e m' e' =
        (m <<< (e - e' - quotientExponent m e m' e').toNat : Nat) / m' := by
      have hvalue := shiftLeft_value m (e - e' - quotientExponent m e m' e').toNat e
      rw [← hvalue, Int.toNat_of_nonneg (sub_nonneg.mpr hsplit)]
      have hexponent : e - (e - e' - quotientExponent m e m' e') =
          e' + quotientExponent m e m' e' := by
        omega
      have hne' : (m' : ℚ) ≠ 0 := by
        exact_mod_cast hm'.ne'
      have hpow := (two_zpow_pos e').ne'
      have hpow' := (two_zpow_pos (quotientExponent m e m' e')).ne'
      rw [hexponent, zpow_add₀ two_ne_zero]
      field_simp
    have hrounded := @rounds_roundWithAccuracy _ _ _ (m * 2 ^ e / (m' * 2 ^ e'))
      (s / s') (@quotient_long m m' e e' hm hm') (by
        rw [hquotient]
        exact represents_quotient _ hm')
    rw [value_finite, value_finite, ← withSign_div]
    exact hrounded

end Quotients

section Roots

/-- A root is computed with enough digits. -/
theorem root_long (hm : 0 < m) :
    (UnpackedFloat.sqrtCore .binary32 m e).2.1 ≤ -149 ∨
      8388608 ≤ (UnpackedFloat.sqrtCore .binary32 m e).1 := by
  let t := min (e / 2) (max (((m.log2 : Int) + 1 + e + 1) / 2 - 24) (-149))
  have hcore : (UnpackedFloat.sqrtCore .binary32 m e).2.1 = t ∧
      (UnpackedFloat.sqrtCore .binary32 m e).1 = (m <<< (e - 2 * t).toNat).sqrt := ⟨rfl, rfl⟩
  rw [hcore.1, hcore.2]
  have hshift : t ≤ -149 ∨ 46 ≤ m.log2 + (e - 2 * t).toNat := by
    simp only [t]
    omega
  refine hshift.imp_right fun hlog => Nat.le_sqrt.mpr ?_
  generalize (e - 2 * t).toNat = k at hlog
  calc 8388608 * 8388608 = 2 ^ 46 := by
        norm_num
    _ ≤ 2 ^ (m.log2 + k) := Nat.pow_le_pow_right Nat.two_pos hlog
    _ = 2 ^ m.log2 * 2 ^ k := pow_add _ _ _
    _ ≤ m * 2 ^ k := Nat.mul_le_mul_right _ (Nat.log2_self_le hm.ne')
    _ = m <<< k := (Nat.shiftLeft_eq m k).symm

/-- Some rational that a significand with its accuracy stands for. -/
theorem exists_represents (m : Nat) (acc : UnpackedFloat.Accuracy) :
    ∃ x, Represents (.ofMantissaAndAccuracy m acc) x := by
  rcases acc with _ | (_ | _ | _)
  · exact ⟨m, rfl⟩
  · refine ⟨m + 1 / 4, ?_⟩
    change (m : ℚ) < m + 1 / 4 ∧ (m : ℚ) + 1 / 4 < m + 1 / 2
    constructor <;> linarith
  · exact ⟨m + 1 / 2, rfl⟩
  · refine ⟨m + 3 / 4, ?_⟩
    change (m : ℚ) + 1 / 2 < m + 3 / 4 ∧ (m : ℚ) + 3 / 4 < m + 1
    constructor <;> linarith

/-- The root of a positive number is stored as a number that is not negative. -/
theorem rounds_sqrt (hm : 0 < m) :
    ∃ q, 0 ≤ q ∧ Rounds (stored (.sqrt .binary32 (.finite .positive m e hm))) q := by
  obtain ⟨x, hx⟩ := exists_represents (UnpackedFloat.sqrtCore .binary32 m e).1
    (UnpackedFloat.sqrtCore .binary32 m e).2.2
  have hnonneg : 0 ≤ x := (Nat.cast_nonneg _).trans hx.mantissa_le
  have hrounded := @rounds_roundWithAccuracy _ _ _
    (x * 2 ^ (UnpackedFloat.sqrtCore .binary32 m e).2.1) .positive (@root_long m e hm) (by
      rwa [mul_div_cancel_right₀ _ (two_zpow_pos _).ne'])
  exact ⟨_, mul_nonneg hnonneg (two_zpow_pos _).le, hrounded⟩

end Roots
end UnpackedFloat

end Penumbra
