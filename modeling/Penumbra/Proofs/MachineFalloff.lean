import Mathlib
import Penumbra.Illumination
import Penumbra.Proofs.Numeric.Arithmetic

/-!
# How light falls off in machine numbers

In machine numbers the part of a light that arrives is a number between zero and one, whatever the
steepness is, negative ones included: each step of the formula stays in its bounds when it is rounded.
There is one exception.  At the end of the range nothing arrives, and a steepness of minus one leaves
nothing to divide by; the quotient of the two is not a number, and it is not brought into the bounds.

**Results**

* `Proportion`: the numbers between zero and one, and the steps that stay among them.
* `rangeFraction_spec`: the fraction of the range is whole from the end of the range on.
* `attenuation_cases`: the part that arrives, and the one case in which it is not a number.
* `attenuation_isNumber`: the same for all lights that reach a point.
-/

namespace Penumbra

open Binary32

/-- A machine number between zero and one. -/
structure Proportion (a : Float32) : Prop where
  isNumber : Scalar.isNumber a = true
  nonneg : 0 ≤ value a
  le_one : value a ≤ 1

theorem proportion_iff {a : Float32} : Proportion a ↔ 0.0 ≤ a ∧ a ≤ 1.0 := by
  constructor
  · intro h
    refine ⟨nonneg_iff.mpr ⟨h.isNumber, h.nonneg⟩, ?_⟩
    rw [le_iff_value h.isNumber isNumber_one, value_one]
    exact h.le_one
  · rintro ⟨hlow, hhigh⟩
    obtain ⟨hnumber, hnonneg⟩ := nonneg_iff.mp hlow
    rw [le_iff_value hnumber isNumber_one, value_one] at hhigh
    exact ⟨hnumber, hnonneg, hhigh⟩

/-- The first machine number below one. -/
theorem representable_below_one : Representable (1 - 1 / 2 ^ 24) := by
  have hdigits := @Representable.of_magnitude 16777215 (-24) (by norm_num) (by norm_num)
    (by norm_num)
  norm_num at hdigits ⊢
  exact hdigits

namespace Proportion

variable {s c : Float32}

theorem isFinite (h : Proportion s) : IsFinite s := by
  refine isFinite_iff.mpr ⟨h.isNumber, ?_⟩
  rw [abs_of_nonneg h.nonneg]
  exact h.le_one.trans_lt (by norm_num)

theorem of_rounds {q : ℚ} (h : Rounds s q) (hlow : 0 ≤ q) (hhigh : q ≤ 1) : Proportion s :=
  ⟨h.isNumber, h.nonneg hlow, h.value_le .one hhigh⟩

theorem clamp {a : Float32} (h : Scalar.isNumber a = true) : Proportion (Scalar.clamp 0.0 1.0 a) := by
  obtain ⟨hnumber, hvalue⟩ := value_clamp h
  refine ⟨hnumber, ?_, ?_⟩
  · rw [hvalue]
    exact le_min (le_max_right _ _) zero_le_one
  · rw [hvalue]
    exact min_le_right _ _

/-- One that is not the whole stays away from it. -/
theorem le_below_one (h : Proportion s) (hne : value s ≠ 1) : value s ≤ 1 - 1 / 2 ^ 24 := by
  have hlt := (representable_value h.isNumber).le_shrunk .one one_pos (lt_of_le_of_ne h.le_one hne)
  rwa [one_mul] at hlt

/-- What may be taken away from a fraction. -/
structure Drop (s a : Float32) : Prop where
  isFinite : IsFinite a
  low : -value s ≤ value a
  high : value a ≤ 0

namespace Drop

variable {a : Float32}

theorem of_rounds (h : Proportion s) {q : ℚ} (hrounds : Rounds a q) (hlow : -value s ≤ q)
    (hhigh : q ≤ 0) : Drop s a where
  isFinite := by
    refine hrounds.isFinite .one ?_ (by norm_num)
    rw [abs_le]
    constructor <;> linarith [h.le_one]
  low := hrounds.le_value (representable_value h.isNumber).neg hlow
  high := hrounds.value_le .zero hhigh

theorem mul (hdrop : Drop s a) (h : Proportion s) (hc : Proportion c) : Drop s (a * c) := by
  have hless : value a ≤ value a * value c := le_mul_of_le_one_right hdrop.high hc.le_one
  exact of_rounds h (Rounds.mul hdrop.isFinite hc.isFinite) (hdrop.low.trans hless)
    (mul_nonpos_of_nonpos_of_nonneg hdrop.high hc.nonneg)

theorem add (hdrop : Drop s a) (h : Proportion s) : Proportion (s + a) :=
  Proportion.of_rounds (Rounds.add h.isFinite hdrop.isFinite) (by linarith [hdrop.low])
    (by linarith [hdrop.high, h.le_one])

end Drop

section Steps

/-- The square is not more than the fraction. -/
theorem square (h : Proportion s) : Proportion (s * s) ∧ value (s * s) ≤ value s := by
  have hrounds := Rounds.mul h.isFinite h.isFinite
  have hless : value s * value s ≤ value s := mul_le_of_le_one_left h.nonneg h.le_one
  exact ⟨of_rounds hrounds (mul_self_nonneg _) (hless.trans h.le_one),
    hrounds.value_le (representable_value h.isNumber) hless⟩

theorem square_whole (h : Proportion s) (hone : value s = 1) : value (s * s) = 1 := by
  have hrounds := Rounds.mul h.isFinite h.isFinite
  rw [hone, mul_one] at hrounds
  exact hrounds.value_eq .one

/-- The bend takes away no more than there is, and nothing at the end of the range. -/
theorem curve (h : Proportion s) (hc : Proportion c) :
    Proportion (s + (s * s - s) * c) ∧ (value s = 1 → value (s + (s * s - s) * c) = 1) := by
  obtain ⟨hsquare, hless⟩ := h.square
  have hdrop : Drop s (s * s - s) := Drop.of_rounds h (Rounds.sub hsquare.isFinite h.isFinite)
    (by linarith [hsquare.nonneg]) (by linarith)
  have hbend : Drop s ((s * s - s) * c) := hdrop.mul h hc
  refine ⟨hbend.add h, fun hone => ?_⟩
  have hnone : value (s * s - s) = 0 := by
    have hrounds := Rounds.sub hsquare.isFinite h.isFinite
    rw [h.square_whole hone, hone, sub_self] at hrounds
    exact hrounds.value_eq .zero
  have hnone' : value ((s * s - s) * c) = 0 := by
    have hrounds := Rounds.mul hdrop.isFinite hc.isFinite
    rw [hnone, zero_mul] at hrounds
    exact hrounds.value_eq .zero
  have hsum := Rounds.add h.isFinite hbend.isFinite
  rw [hnone', add_zero, hone] at hsum
  exact hsum.value_eq .one

/-- What is left of the whole vanishes only at the end of the range. -/
theorem left (h : Proportion s) :
    Proportion (1.0 - s * s) ∧ (value s = 1 → value (1.0 - s * s) = 0) ∧
      (value s ≠ 1 → 1 / 2 ^ 24 ≤ value (1.0 - s * s)) := by
  obtain ⟨hsquare, hless⟩ := h.square
  have hone : IsFinite (1.0 : Float32) := rfl
  have hrounds := Rounds.sub hone hsquare.isFinite
  rw [value_one] at hrounds
  refine ⟨of_rounds hrounds (by linarith [hsquare.le_one]) (by linarith [hsquare.nonneg]), ?_, ?_⟩
  · intro hwhole
    rw [h.square_whole hwhole, sub_self] at hrounds
    exact hrounds.value_eq .zero
  · intro hne
    exact hrounds.le_value (.inv_two_pow (by norm_num)) (by linarith [h.le_below_one hne])

/-- The numerator vanishes only at the end of the range. -/
theorem left_square (h : Proportion s) :
    Proportion ((1.0 - s * s) * (1.0 - s * s)) ∧
      (value ((1.0 - s * s) * (1.0 - s * s)) = 0 ↔ value s = 1) := by
  obtain ⟨hleft, hwhole, hpart⟩ := h.left
  have hrounds := Rounds.mul hleft.isFinite hleft.isFinite
  refine ⟨hleft.square.1, ⟨fun hzero => ?_, fun hone => ?_⟩⟩
  · by_contra hne
    have hproduct := mul_le_mul (hpart hne) (hpart hne) (by positivity) hleft.nonneg
    have hsquares : (1 : ℚ) / 2 ^ 24 * (1 / 2 ^ 24) = 1 / 2 ^ 48 := by
      norm_num
    rw [hsquares] at hproduct
    have hle := hrounds.le_value (.inv_two_pow (by norm_num)) hproduct
    rw [hzero] at hle
    exact hle.not_gt (by positivity)
  · rw [hwhole hone, mul_zero] at hrounds
    exact hrounds.value_eq .zero

/-- One and another number make nothing only if the other one is minus one. -/
theorem one_add_eq_zero {a : Float32} (ha : IsFinite a) (hzero : value (1.0 + a) = 0) :
    value a = -1 := by
  have hone : IsFinite (1.0 : Float32) := rfl
  have hsum := Rounds.add hone ha
  have hrepresentable := (representable_value ha.isNumber).neg
  have hunit : Representable (1 / 2 ^ 24) := .inv_two_pow (by norm_num)
  have hpos : (0 : ℚ) < 1 / 2 ^ 24 := by
    positivity
  rw [value_one] at hsum
  by_contra hne
  rcases lt_or_gt_of_ne hne with hbelow | habove
  · have hgap := Representable.one.le_shrunk hrepresentable (by linarith) (by linarith)
    have hle := hsum.value_le hunit.neg (by linarith)
    linarith
  · have hgap := hrepresentable.le_shrunk .one one_pos (by linarith)
    have hle := hsum.le_value hunit (by linarith)
    linarith

/-- At the end of the range, only a steepness of minus one leaves nothing to divide by. -/
theorem denominator (h : Proportion s) {f : Float32} (hf : IsFinite f) :
    Scalar.isNumber (1.0 + f * s) = true ∧
      (value s = 1 → value (1.0 + f * s) = 0 → value f = -1) ∧
      (value s = 1 → value f = -1 → IsFinite (1.0 + f * s) ∧ value (1.0 + f * s) = 0) := by
  have hone : IsFinite (1.0 : Float32) := rfl
  have hsteep := Rounds.mul hf h.isFinite
  have hfinite : IsFinite (f * s) := by
    refine hsteep.isFinite (representable_value hf.isNumber).abs ?_ (isFinite_iff.mp hf).2
    rw [abs_mul, abs_of_nonneg h.nonneg]
    exact mul_le_of_le_one_right (abs_nonneg _) h.le_one
  have hsame : value s = 1 → value (f * s) = value f := fun hwhole => by
    rw [hwhole, mul_one] at hsteep
    exact hsteep.value_eq (representable_value hf.isNumber)
  have hsum := Rounds.add hone hfinite
  refine ⟨hsum.isNumber, fun hwhole hzero => ?_, fun hwhole hminus => ?_⟩
  · rw [← hsame hwhole]
    exact one_add_eq_zero hfinite hzero
  · rw [hsame hwhole, hminus, value_one, add_neg_cancel] at hsum
    exact ⟨hsum.isFinite .zero abs_zero.le (by positivity), hsum.value_eq .zero⟩

/-- The quotient of the formula is a number but for a steepness of minus one at the end of the
range. -/
theorem isNumber_fall (h : Proportion s) (hc : Proportion c) {f : Float32} (hf : IsFinite f) :
    Scalar.isNumber
        ((1.0 - s * s) * (1.0 - s * s) / (1.0 + f * (s + (s * s - s) * c))) = true ↔
      ¬(value s = 1 ∧ value f = -1) := by
  obtain ⟨hcurve, hend⟩ := h.curve hc
  obtain ⟨hnumerator, hvanishes⟩ := h.left_square
  obtain ⟨hnumber, hleft, hnothing⟩ := hcurve.denominator hf
  constructor
  · rintro hquotient ⟨hwhole, hminus⟩
    obtain ⟨hfinite, hzero⟩ := hnothing (hend hwhole) hminus
    rw [not_isNumber_div hnumerator.isFinite hfinite (hvanishes.mpr hwhole) hzero] at hquotient
    exact Bool.noConfusion hquotient
  · intro hordinary
    refine isNumber_div hnumerator.isNumber hnumber (Or.inl hnumerator.isFinite) ?_
    rw [← not_and_or]
    rintro ⟨hzero, hzero'⟩
    have hwhole := hvanishes.mp hzero
    exact hordinary ⟨hwhole, hleft (hend hwhole) hzero'⟩

end Steps
end Proportion

section Range

variable {d r f k root : Float32}

/-- Only what reaches one is brought down to the whole. -/
theorem value_clamp_eq_one_iff {a : Float32} (h : Scalar.isNumber a = true) :
    value (Scalar.clamp 0.0 1.0 a) = 1 ↔ 1 ≤ value a := by
  rw [(value_clamp h).2, min_eq_right_iff, le_max_iff]
  exact or_iff_left one_pos.not_ge

/-- The fraction of the range that a ray goes is the whole from the end of the range on. -/
theorem rangeFraction_spec (hroot : 0.0 ≤ root) (hr : IsFinite r) (hpos : 0.0 < r) :
    Proportion (Scalar.clamp 0.0 1.0 (root / r)) ∧
      (value (Scalar.clamp 0.0 1.0 (root / r)) = 1 ↔ r ≤ root) := by
  obtain ⟨hnumber, -⟩ := nonneg_iff.mp hroot
  rw [lt_iff_value isNumber_zero hr.isNumber, value_zero] at hpos
  rw [le_iff_value hr.isNumber hnumber]
  by_cases hfinite : IsFinite root
  · have hrounds := Rounds.div hfinite hr hpos.ne'
    refine ⟨.clamp hrounds.isNumber, (value_clamp_eq_one_iff hrounds.isNumber).trans ?_⟩
    refine ⟨fun hle => ?_, fun hle => hrounds.le_value .one ((one_le_div hpos).mpr hle)⟩
    by_contra hlt
    -- Below the end, the root is less by a part of the range, and so the quotient stays below one.
    have hgap := (representable_value hnumber).le_shrunk (representable_value hr.isNumber) hpos
      (not_le.mp hlt)
    have hbelow := hrounds.value_le representable_below_one ((div_le_iff₀' hpos).mpr hgap)
    exact (hle.trans hbelow).not_gt (sub_lt_self 1 (by positivity))
  · obtain ⟨hquotient, hvalue⟩ := infinity_div hroot hfinite hr hpos
    have hlimit := (representable_value hr.isNumber).1
    refine ⟨.clamp hquotient, (value_clamp_eq_one_iff hquotient).trans (iff_of_true ?_ ?_)⟩
    · rw [hvalue]
      exact one_le_pow₀ one_le_two
    · rw [value_infinity_of_nonneg hroot hfinite]
      exact (le_abs_self _).trans hlimit

/-- The end of the range of a light whose steepness is minus one. -/
def Exhausted (d r f : Float32) : Prop :=
  0.0 < r ∧ r ≤ Scalar.sqrt (d + lightHeight * lightHeight) ∧ f = -1.0

instance : Decidable (Exhausted d r f) := inferInstanceAs (Decidable (_ ∧ _))

theorem value_minus_one : value (-1.0) = -1 := by
  have hunpacked : unpacked (-1.0 : Float32) = .finite .negative 8388608 (-23) (by decide) := rfl
  rw [value, hunpacked, UnpackedFloat.value_finite, UnpackedFloat.withSign]
  norm_num

/-- The part of a light that arrives is a number between zero and one, but for the end of the range
of a light whose steepness is minus one. -/
theorem attenuation_cases (hd : 0.0 ≤ d) (hr : IsFinite r) (hf : IsFinite f)
    (hk : Scalar.isNumber k = true) :
    (Exhausted d r f → Scalar.isNumber (attenuation d r f k) = false) ∧
      (¬Exhausted d r f → Proportion (attenuation d r f k)) := by
  have hsign := le_iff_value hr.isNumber isNumber_zero
  have hsign' := lt_iff_value isNumber_zero hr.isNumber
  rw [attenuation]
  split_ifs with hnone
  · refine ⟨fun h => ?_, fun _ => ⟨isNumber_zero, le_rfl, zero_le_one⟩⟩
    exact absurd (hsign'.mp h.1) (hsign.mp hnone).not_gt
  · have hpos : 0.0 < r := hsign'.mpr (not_le.mp (mt hsign.mpr hnone))
    have hheight : 0.0 ≤ (lightHeight * lightHeight : Float32) := by
      decide +kernel
    obtain ⟨hs, hwhole⟩ := rangeFraction_spec (nonneg_sqrt (nonneg_add hd hheight)) hr hpos
    have hfall := hs.isNumber_fall (.clamp hk) hf
    have hminus : value f = -1 ↔ f = -1.0 := by
      refine ⟨fun h => ?_, fun h => h ▸ value_minus_one⟩
      exact eq_of_value_eq hf.isNumber rfl (h.trans value_minus_one.symm)
        (value_minus_one.trans_ne (by norm_num))
    have hexhausted : Exhausted d r f ↔
        value (Scalar.clamp 0.0 1.0 (Scalar.sqrt (d + lightHeight * lightHeight) / r)) = 1 ∧
          value f = -1 := by
      rw [Exhausted, hwhole, hminus]
      exact and_iff_right hpos
    rw [← hexhausted] at hfall
    refine ⟨fun h => ?_, fun h => .clamp (hfall.mpr h)⟩
    have hnumber := Bool.eq_false_iff.mpr (mt hfall.mp (not_not.mpr h))
    rw [clamp_of_not_isNumber hnumber]
    exact hnumber

end Range

section Lights

/-- A point with finite coordinates. -/
def Vec2.IsFinite (v : Vec2 Float32) : Prop := Binary32.IsFinite v.x ∧ Binary32.IsFinite v.y

instance (v : Vec2 Float32) : Decidable v.IsFinite := inferInstanceAs (Decidable (_ ∧ _))

/-- A light whose numbers are finite as far as the part that arrives depends on them. -/
def LightEntry.IsFinite (e : LightEntry Float32) : Prop :=
  e.position.IsFinite ∧ Binary32.IsFinite e.light.radius ∧ Binary32.IsFinite e.light.falloff ∧
    Binary32.IsFinite e.light.curveFactor

instance (e : LightEntry Float32) : Decidable e.IsFinite := inferInstanceAs (Decidable (_ ∧ _))

theorem nonneg_distanceSquared {v w : Vec2 Float32} (hv : v.IsFinite) (hw : w.IsFinite) :
    0.0 ≤ v.distanceSquared w :=
  nonneg_add (nonneg_mul_self (Rounds.sub hv.1 hw.1).isNumber)
    (nonneg_mul_self (Rounds.sub hv.2 hw.2).isNumber)

/-- The part of a light that arrives, for all finite numbers, and for all lights that reach a point:
it is a number between zero and one, and it is none exactly at the end of the range of a light whose
steepness is minus one. -/
theorem attenuation_isNumber {d r f k : Float32} (hd : 0.0 ≤ d) (hr : Binary32.IsFinite r)
    (hf : Binary32.IsFinite f) (hk : Binary32.IsFinite k) :
    (Exhausted d r f → Scalar.isNumber (attenuation d r f k) = false) ∧
    (¬Exhausted d r f → 0.0 ≤ attenuation d r f k ∧ attenuation d r f k ≤ 1.0) ∧
    ∀ (index : SpatialIndex Float32) (map : MapId) (point : Vec2 Float32), point.IsFinite →
      ∀ e ∈ lightsReaching index map point, e.IsFinite →
        ¬Exhausted (e.position.distanceSquared point) e.light.radius e.light.falloff →
        ∃ part, 0.0 ≤ part ∧ part ≤ 1.0 ∧
          contribution point e = e.light.color.scaled (e.light.energy * part) := by
  obtain ⟨hexhausted, hordinary⟩ := attenuation_cases hd hr hf hk.isNumber
  refine ⟨hexhausted, fun h => proportion_iff.mp (hordinary h), ?_⟩
  intro index map point hpoint e he hfinite hordinary
  obtain ⟨hposition, hradius, hfalloff, hcurve⟩ := hfinite
  have hpart := (attenuation_cases (nonneg_distanceSquared hposition hpoint) hradius hfalloff
    hcurve.isNumber).2 hordinary
  obtain ⟨hlow, hhigh⟩ := proportion_iff.mp hpart
  exact ⟨_, hlow, hhigh, rfl⟩

/-- A lamp five units away, with a range of five. -/
def distantLamp (falloff : Float32) : LightEntry Float32 :=
  ⟨⟨1⟩, { Light.standard with falloff := falloff }, Pose.ofPosition ⟨3.0, 4.0⟩⟩

/-- A map with nothing but a lamp. -/
def lampIndex (e : LightEntry Float32) : SpatialIndex Float32 := ⟨fun _ _ => [e], fun _ _ => []⟩

theorem attenuation_isNumber_distantLamp :
    (0.0 ≤ attenuation (24.0 : Float32) 5.0 6.8 0.0 ∧
      attenuation (24.0 : Float32) 5.0 6.8 0.0 ≤ 1.0) ∧
    ∃ part, 0.0 ≤ part ∧ part ≤ 1.0 ∧
      contribution Vec2.zero (distantLamp (-2.0)) =
        (distantLamp (-2.0)).light.color.scaled ((distantLamp (-2.0)).light.energy * part) := by
  have hmember : distantLamp (-2.0) ∈
      lightsReaching (lampIndex (distantLamp (-2.0))) ⟨1⟩ Vec2.zero :=
    List.mem_filter.mpr ⟨List.mem_singleton.mpr rfl, by decide +kernel⟩
  obtain ⟨-, hnear, hlights⟩ := @attenuation_isNumber 24.0 5.0 6.8 0.0 (by decide +kernel)
    (by decide +kernel) (by decide +kernel) (by decide +kernel)
  constructor
  · exact hnear (by decide +kernel)
  · exact hlights _ _ _ (by decide +kernel) _ hmember (by decide +kernel) (by decide +kernel)

/-- A lamp whose steepness is minus one makes the light at the end of its range no number. -/
theorem attenuation_isNumber_exhaustedLamp :
    Scalar.isNumber (attenuation (24.0 : Float32) 5.0 (-1.0) 0.0) = false ∧
      Scalar.isNumber (lightColorAt (lampIndex (distantLamp (-1.0))) ⟨1⟩ Vec2.zero).r = false := by
  decide +kernel

end Lights
end Penumbra
