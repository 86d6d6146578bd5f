import Mathlib.Analysis.Real.Sqrt
import Penumbra.Illumination
import Penumbra.Proofs.Numeric.Exact

/-!
# How light falls off

The part of a light that arrives depends on one quantity only, the fraction of the range that a ray
has to go: the fall is a function of this fraction, of the steepness and of the bend.  In real
numbers it never rises with the fraction or the steepness and never falls with the bend, all at once;
what is known of distances and ranges is known of their fraction.

**Results**

* `Scalar.clamp_zero_one`: the nearest value between zero and one.
* `curve_le_curve`, `dimmed_le_dimmed`: order of the fall in all its arguments.
* `dimmed_eq_zero_iff`: nothing arrives only at the end of the range.
* `attenuation_eq_dimmed`: the part that arrives is the fall at the fraction.
* `attenuation_shape`: bounds, zeros and order of the part that arrives.
-/

namespace Penumbra

theorem Scalar.clamp_zero_one {K : Type} [ExactScalar K] (a : K) :
    clamp 0.0 1.0 a = min (max a 0) 1 := by
  have hraised : (if a < 0 then 0 else a) = max a 0 := (max_def_lt a 0).symm
  rw [clamp, literal_zero, literal_one, hraised, min_comm]
  exact (min_def_lt _ _).symm

/-- The fall bends between the fraction itself and its square. -/
def curve (fraction bend : ℝ) : ℝ := fraction + (fraction * fraction - fraction) * bend

/-- What is left of a light after a fraction of its range. -/
noncomputable def dimmed (fraction falloff bend : ℝ) : ℝ :=
  (1 - fraction * fraction) * (1 - fraction * fraction) / (1 + falloff * curve fraction bend)

section Fall

variable {s s' f f' t t' : ℝ}

theorem curve_nonneg (hs : 0 ≤ s) (ht : t ∈ Set.Icc 0 1) : 0 ≤ curve s t := by
  have hstraight : 0 ≤ s * (1 - t) := mul_nonneg hs (sub_nonneg.mpr ht.2)
  have hbent : 0 ≤ s * s * t := mul_nonneg (mul_self_nonneg s) ht.1
  have hparts : curve s t = s * (1 - t) + s * s * t := by
    rw [curve]
    ring
  rw [hparts]
  exact add_nonneg hstraight hbent

/-- The curve rises with the fraction and falls with the bend. -/
theorem curve_le_curve (hs : 0 ≤ s) (hle : s ≤ s') (hone : s' ≤ 1) (ht : t ∈ Set.Icc 0 1)
    (hbend : t' ≤ t) : curve s t ≤ curve s' t' := by
  have hfraction : curve s t ≤ curve s' t := by
    have hparts : curve s' t - curve s t = (s' - s) * ((1 - t) + (s' + s) * t) := by
      rw [curve, curve]
      ring
    have hrise : 0 ≤ (1 - t) + (s' + s) * t :=
      add_nonneg (sub_nonneg.mpr ht.2) (mul_nonneg (by linarith) ht.1)
    have hproduct := mul_nonneg (sub_nonneg.mpr hle) hrise
    linarith
  have hless : curve s' t ≤ curve s' t' := by
    have hsquare : s' * s' ≤ s' := mul_le_of_le_one_left (hs.trans hle) hone
    have hproduct := mul_le_mul_of_nonpos_left hbend (sub_nonpos.mpr hsquare)
    rw [curve, curve]
    linarith
  exact hfraction.trans hless

theorem one_le_denominator (hs : 0 ≤ s) (hf : 0 ≤ f) (ht : t ∈ Set.Icc 0 1) :
    1 ≤ 1 + f * curve s t :=
  le_add_of_nonneg_right (mul_nonneg hf (curve_nonneg hs ht))

theorem dimmed_nonneg (hs : 0 ≤ s) (hf : 0 ≤ f) (ht : t ∈ Set.Icc 0 1) : 0 ≤ dimmed s f t :=
  div_nonneg (mul_self_nonneg _) (zero_le_one.trans (one_le_denominator hs hf ht))

/-- The fall never rises with the fraction or the steepness, and never falls with the bend. -/
theorem dimmed_le_dimmed (hs : 0 ≤ s) (hle : s ≤ s') (hone : s' ≤ 1) (hf : 0 ≤ f) (hsteep : f ≤ f')
    (ht : t ∈ Set.Icc 0 1) (hbend : t' ≤ t) : dimmed s' f' t' ≤ dimmed s f t := by
  have hend : 0 ≤ 1 - s' * s' := sub_nonneg.mpr (mul_le_one₀ hone (hs.trans hle) hone)
  have hsquares : 1 - s' * s' ≤ 1 - s * s := sub_le_sub_left (mul_self_le_mul_self hs hle) 1
  have hnumerator : (1 - s' * s') * (1 - s' * s') ≤ (1 - s * s) * (1 - s * s) :=
    mul_self_le_mul_self hend hsquares
  have hdenominator : 1 + f * curve s t ≤ 1 + f' * curve s' t' := by
    have hproduct : f * curve s t ≤ f' * curve s' t' :=
      mul_le_mul hsteep (curve_le_curve hs hle hone ht hbend) (curve_nonneg hs ht) (hf.trans hsteep)
    linarith
  exact div_le_div₀ (mul_self_nonneg _) hnumerator
    (zero_lt_one.trans_le (one_le_denominator hs hf ht)) hdenominator

theorem dimmed_le_one (hs : s ∈ Set.Icc 0 1) (hf : 0 ≤ f) (ht : t ∈ Set.Icc 0 1) :
    dimmed s f t ≤ 1 := by
  have hstart : dimmed 0 f t = 1 := by
    simp [dimmed, curve]
  rw [← hstart]
  exact dimmed_le_dimmed (le_refl 0) hs.1 hs.2 hf (le_refl f) ht (le_refl t)

/-- Nothing is left only at the end of the range. -/
theorem dimmed_eq_zero_iff (hs : s ∈ Set.Icc 0 1) (hf : 0 ≤ f) (ht : t ∈ Set.Icc 0 1) :
    dimmed s f t = 0 ↔ s = 1 := by
  have hdenominator : 1 + f * curve s t ≠ 0 :=
    (zero_lt_one.trans_le (one_le_denominator hs.1 hf ht)).ne'
  rw [dimmed, div_eq_zero_iff, or_iff_left hdenominator, mul_self_eq_zero, sub_eq_zero]
  constructor
  · intro hsquare
    rcases mul_self_eq_one_iff.mp hsquare.symm with hone | hneg
    · exact hone
    · linarith [hs.1]
  · rintro rfl
    exact (mul_one 1).symm

end Fall

section Range

/-- The fraction of the range that a ray has to go to a squared distance on the floor. -/
noncomputable def rangeFraction (distanceSquared radius : ℝ) : ℝ :=
  min (√(distanceSquared + 1) / radius) 1

/-- The bend that a factor stands for. -/
def bendOf (curveFactor : ℝ) : ℝ := min (max curveFactor 0) 1

variable {d d' r r' : ℝ}

theorem rangeFraction_mem (hr : 0 < r) : rangeFraction d r ∈ Set.Icc 0 1 :=
  ⟨le_min (div_nonneg (Real.sqrt_nonneg _) hr.le) zero_le_one, min_le_right _ _⟩

theorem bendOf_mem (k : ℝ) : bendOf k ∈ Set.Icc 0 1 :=
  ⟨le_min (le_max_right k 0) zero_le_one, min_le_right _ _⟩

theorem bendOf_le_bendOf {k k' : ℝ} (h : k' ≤ k) : bendOf k' ≤ bendOf k :=
  min_le_min_right 1 (max_le_max_right 0 h)

theorem rangeFraction_le_rangeFraction (hd : d ≤ d') (hr' : 0 < r') (hr : r' ≤ r) :
    rangeFraction d r ≤ rangeFraction d' r' := by
  refine min_le_min_right 1 ?_
  exact div_le_div₀ (Real.sqrt_nonneg _) (Real.sqrt_le_sqrt (by linarith)) hr' hr

theorem rangeFraction_eq_one_iff (hr : 0 < r) : rangeFraction d r = 1 ↔ r * r ≤ d + 1 := by
  rw [rangeFraction, min_eq_right_iff, one_le_div hr, Real.le_sqrt' hr, sq]

/-- A light with a range falls off along the fraction of its range. -/
theorem attenuation_eq_dimmed {f k : ℝ} (hr : 0 < r) (hf : 0 ≤ f) :
    attenuation d r f k = dimmed (rangeFraction d r) f (bendOf k) := by
  have hfraction : Scalar.clamp 0.0 1.0 (√(d + 1) / r) = rangeFraction d r := by
    rw [Scalar.clamp_zero_one, max_eq_left (div_nonneg (Real.sqrt_nonneg _) hr.le), rangeFraction]
  have hresult : Scalar.clamp 0.0 1.0 (dimmed (rangeFraction d r) f (bendOf k)) =
      dimmed (rangeFraction d r) f (bendOf k) := by
    have hmem := rangeFraction_mem (d := d) hr
    rw [Scalar.clamp_zero_one, max_eq_left (dimmed_nonneg hmem.1 hf (bendOf_mem k)),
      min_eq_left (dimmed_le_one hmem hf (bendOf_mem k))]
  have hheight : d + lightHeight * lightHeight = d + 1 := by
    rw [lightHeight, Scalar.literal_one, mul_one]
  have hsqrt : Scalar.sqrt (d + 1) = √(d + 1) := rfl
  rw [attenuation, Scalar.literal_zero, if_neg (not_le.mpr hr)]
  rw [← hresult, ← Scalar.literal_zero, hheight, hsqrt, hfraction, Scalar.clamp_zero_one k]
  simp only [Scalar.literal_one, dimmed, curve, bendOf]

theorem attenuation_of_nonpos {f k : ℝ} (hr : r ≤ 0) : attenuation d r f k = 0 := by
  rw [attenuation, Scalar.literal_zero, if_pos hr]

theorem attenuation_nonneg (d r : ℝ) {f : ℝ} (hf : 0 ≤ f) (k : ℝ) : 0 ≤ attenuation d r f k := by
  rcases le_or_gt r 0 with hdark | hr
  · exact (attenuation_of_nonpos hdark).ge
  · rw [attenuation_eq_dimmed hr hf]
    exact dimmed_nonneg (rangeFraction_mem hr).1 hf (bendOf_mem k)

/-- **The shape of the falloff.**  The part of a light that arrives is between zero and one.  It is
zero for a light without range, and for others exactly where the ray is at least as long as the range.
It never rises with the distance or the steepness and never falls with the range or the bend, whichever
of the four change together. -/
theorem attenuation_shape {distanceSquared radius falloff curveFactor : ℝ}
    (hfalloff : 0 ≤ falloff) :
    attenuation distanceSquared radius falloff curveFactor ∈ Set.Icc 0 1 ∧
      (radius ≤ 0 → attenuation distanceSquared radius falloff curveFactor = 0) ∧
      (0 < radius → (attenuation distanceSquared radius falloff curveFactor = 0 ↔
        radius * radius ≤ distanceSquared + 1)) ∧
      ∀ distanceSquared' radius' falloff' curveFactor',
        distanceSquared ≤ distanceSquared' → radius' ≤ radius → falloff ≤ falloff' →
        curveFactor' ≤ curveFactor →
        attenuation distanceSquared' radius' falloff' curveFactor' ≤
          attenuation distanceSquared radius falloff curveFactor := by
  refine ⟨⟨attenuation_nonneg _ _ hfalloff _, ?_⟩, attenuation_of_nonpos, ?_, ?_⟩
  · rcases le_or_gt radius 0 with hdark | hradius
    · rw [attenuation_of_nonpos hdark]
      exact zero_le_one
    · rw [attenuation_eq_dimmed hradius hfalloff]
      exact dimmed_le_one (rangeFraction_mem hradius) hfalloff (bendOf_mem _)
  · intro hradius
    rw [attenuation_eq_dimmed hradius hfalloff,
      dimmed_eq_zero_iff (rangeFraction_mem hradius) hfalloff (bendOf_mem _),
      rangeFraction_eq_one_iff hradius]
  · intro distanceSquared' radius' falloff' curveFactor' hfar hshort hsteep hbend
    rcases le_or_gt radius' 0 with hdark | hradius'
    · rw [attenuation_of_nonpos hdark]
      exact attenuation_nonneg _ _ hfalloff _
    · have hradius : 0 < radius := hradius'.trans_le hshort
      rw [attenuation_eq_dimmed hradius' (hfalloff.trans hsteep),
        attenuation_eq_dimmed hradius hfalloff]
      exact dimmed_le_dimmed (rangeFraction_mem hradius).1
        (rangeFraction_le_rangeFraction hfar hradius' hshort) (rangeFraction_mem hradius').2
        hfalloff hsteep (bendOf_mem _) (bendOf_le_bendOf hbend)

/-- A light with a range of five, seen along a ray of three and along a ray of five. -/
theorem attenuation_shape_rangeFive :
    (0 : ℝ) ≤ 6.8 ∧ attenuation (8 : ℝ) 5 6.8 0.5 = 256 / 2665 ∧ attenuation (24 : ℝ) 5 6.8 0.5 = 0 ∧
      attenuation (9 : ℝ) 4 7 0.25 ≤ 256 / 2665 := by
  have hfalloff : (0 : ℝ) ≤ 6.8 := by
    norm_num
  have hroot : √(8 + 1 : ℝ) = 3 := by
    rw [Real.sqrt_eq_iff_mul_self_eq_of_pos three_pos]
    norm_num
  have hfraction : rangeFraction 8 5 = 3 / 5 := by
    rw [rangeFraction, hroot]
    exact min_eq_left (by norm_num)
  have hbend : bendOf 0.5 = 1 / 2 := by
    norm_num [bendOf]
  have hthree : attenuation (8 : ℝ) 5 6.8 0.5 = 256 / 2665 := by
    rw [attenuation_eq_dimmed (by norm_num) hfalloff, hfraction, hbend]
    norm_num [dimmed, curve]
  obtain ⟨-, -, hend, -⟩ := @attenuation_shape 24 5 6.8 0.5 hfalloff
  obtain ⟨-, -, -, horder⟩ := @attenuation_shape 8 5 6.8 0.5 hfalloff
  refine ⟨hfalloff, hthree, (hend (by norm_num)).mpr (by norm_num), ?_⟩
  rw [← hthree]
  exact horder 9 4 7 0.25 (by norm_num) (by norm_num) (by norm_num) (by norm_num)

end Range
end Penumbra
