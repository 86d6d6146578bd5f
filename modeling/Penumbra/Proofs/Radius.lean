import Mathlib
import Penumbra.Light.Basic
import Penumbra.Proofs.Numeric.Arithmetic

/-!
# Ranges that follow their requests

A light keeps its range when it is asked for one within a thousandth of it, so that small changes do
not move the light in its tree.  After any run of requests the range is within a thousandth of the
last one, as far as machine numbers tell: steps that are too small to be taken one by one are taken
once they add up.  An infinite range is the exception.  It is as far from any request as its own
thousandth, and so it is kept for good.

**Results**

* `Light.setRadius_cases`: the range is stored and an update queued, or the light stays as it is.
* `Light.Follows`, `Light.follows_setRadius`: how far a range is from the last request.
* `Light.setRadius_follows`: the same after any run of requests.
-/

namespace Penumbra

open Float.Model

namespace Binary32

variable {a : Float32}

theorem isInfinite_iff : isInfinite a = true ↔ ∃ s, unpacked a = .infinity s := by
  rw [isInfinite, Bool.and_eq_true, decide_eq_true_eq, decide_eq_true_eq, unpacked_eq]
  constructor
  · rintro ⟨hexponent, hfraction⟩
    rw [if_pos hexponent, if_pos hfraction]
    exact ⟨_, rfl⟩
  · rintro ⟨s, hs⟩
    split_ifs at hs with hexponent hfraction
    exact ⟨hexponent, hfraction⟩

/-- A number is finite or infinite. -/
theorem isFinite_of_not_isInfinite (h : Scalar.isNumber a = true)
    (hfinite : isInfinite a = false) : IsFinite a := by
  by_contra hlarge
  rw [isInfinite_iff.mpr (unpacked_infinity h hlarge)] at hfinite
  exact Bool.noConfusion hfinite

theorem not_isInfinite_of_isFinite (h : IsFinite a) : isInfinite a = false := by
  rw [← Bool.not_eq_true, isInfinite_iff]
  rintro ⟨s, hs⟩
  exact not_isFinite_of_infinity hs h

theorem isNumber_of_abs (h : Scalar.isNumber (Scalar.abs a) = true) :
    Scalar.isNumber a = true := by
  rw [isNumber_iff] at h ⊢
  intro hnone
  have habs : Scalar.abs a = UnpackedFloat.stored (unpacked a).abs := rfl
  rw [habs, hnone] at h
  exact h unpacked_ofModel_notANumber

theorem isFinite_abs (h : IsFinite a) : IsFinite (Scalar.abs a) := by
  obtain ⟨hnumber, hlimit⟩ := isFinite_iff.mp h
  refine isFinite_iff.mpr ⟨isNumber_abs hnumber, ?_⟩
  rwa [value_abs hnumber, abs_abs]

theorem isFinite_maximum_zero (h : IsFinite a) : IsFinite (Scalar.maximum a 0.0) := by
  obtain ⟨hnumber, hvalue⟩ := maximum_zero h.isNumber
  obtain ⟨-, hlimit⟩ := isFinite_iff.mp h
  refine isFinite_iff.mpr ⟨hnumber, ?_⟩
  rw [hvalue, abs_of_nonneg (le_max_right _ _)]
  exact max_lt ((le_abs_self _).trans_lt hlimit) (by positivity)

end Binary32

open Binary32

namespace Light

/-- A request is so close to the range that the range is kept. -/
def RangeKept (radius requested : Float32) : Prop :=
  Scalar.abs (radius - requested) ≤ Scalar.abs radius * radiusTolerance

instance (radius requested : Float32) : Decidable (RangeKept radius requested) :=
  inferInstanceAs (Decidable (_ ≤ _))

section Step

variable {radius requested : Float32}

theorem isFinite_radiusTolerance : IsFinite radiusTolerance := rfl

theorem value_radiusTolerance : value radiusTolerance = 8589935 / 2 ^ 33 := by
  have hunpacked : unpacked radiusTolerance = .finite .positive 8589935 (-33) (by decide) := rfl
  rw [value, hunpacked, UnpackedFloat.value_finite, UnpackedFloat.withSign]
  norm_num

/-- A finite range that is kept is within a thousandth of the request, up to rounding. -/
theorem near_of_rangeKept (hradius : IsFinite radius) (hrequested : IsFinite requested)
    (h : RangeKept radius requested) :
    |value radius - value requested| ≤ |value radius| * (10000002 / 10000000000) + 1 / 2 ^ 148 := by
  have hdifference := Rounds.sub hradius hrequested
  have hproduct := Rounds.mul (isFinite_abs hradius) isFinite_radiusTolerance
  have hpositive : 0 ≤ |value radius| := abs_nonneg _
  rw [value_abs hradius.isNumber, value_radiusTolerance] at hproduct
  have hfinite : |value (Scalar.abs radius * radiusTolerance)| < 2 ^ 128 := by
    have hlimit := (isFinite_iff.mp hradius).2
    have hhalf : |(|value radius| * (8589935 / 2 ^ 33))| ≤ 2 ^ (127 : Int) := by
      rw [abs_of_nonneg (by positivity)]
      norm_num at hlimit ⊢
      linarith
    exact (hproduct.abs_value_le (.two_zpow (by norm_num) (by norm_num)) hhalf).trans_lt (by norm_num)
  rw [RangeKept, le_iff_value (isNumber_abs hdifference.isNumber) hproduct.isNumber,
    value_abs hdifference.isNumber] at h
  -- Both sides of the comparison are rounded once.
  have hleft := hdifference.roundedTo.near (h.trans_lt ((le_abs_self _).trans_lt hfinite))
  have hright := (abs_le.mp (hproduct.roundedTo.near hfinite)).2
  have hexact : |value radius - value requested| ≤ |value (radius - requested)| +
      |value (radius - requested) - (value radius - value requested)| := by
    have htriangle := abs_sub_abs_le_abs_sub (value radius - value requested)
      (value (radius - requested))
    rw [abs_sub_comm (value (radius - requested))]
    linarith
  rw [abs_of_nonneg (by positivity : 0 ≤ |value radius| * (8589935 / 2 ^ 33))] at hright
  norm_num at hleft hright ⊢
  linarith

/-- An infinite range is kept whatever is requested. -/
theorem rangeKept_of_isInfinite (hradius : isInfinite radius = true)
    (hrequested : IsFinite requested) : RangeKept radius requested := by
  obtain ⟨s, hs⟩ := isInfinite_iff.mp hradius
  have hnumber : Scalar.isNumber radius = true := by
    rw [isNumber_iff, hs]
    exact UnpackedFloat.noConfusion
  have hinfinity : unpacked (Scalar.abs radius) = .infinity .positive := by
    rw [unpacked_abs hnumber, hs]
    rfl
  have hdifference : radius - requested = radius := by
    have hsub : UnpackedFloat.sub .binary32 (.infinity s) (unpacked requested) = .infinity s := by
      have hparts := hrequested.unpacked
      generalize unpacked requested = u at hparts
      cases u with
      | infinity s' => exact hparts.elim
      | notANumber => exact hparts.elim
      | zero s' => rfl
      | finite s' m e hm => rfl
    refine eq_of_unpacked_eq ?_
    change unpacked (UnpackedFloat.stored (.sub .binary32 (unpacked radius) (unpacked requested))) = _
    rw [hs, hsub]
    exact UnpackedFloat.unpacked_stored_infinity s
  have hproduct : Scalar.abs radius * radiusTolerance = Scalar.abs radius := by
    refine eq_of_unpacked_eq ?_
    change unpacked (UnpackedFloat.stored (.mul .binary32 (unpacked (Scalar.abs radius))
      (unpacked radiusTolerance))) = _
    rw [hinfinity]
    exact UnpackedFloat.unpacked_stored_infinity .positive
  rw [RangeKept, hdifference, hproduct]
  exact Scalar.le_refl_of_isNumber (isNumber_abs hnumber)

theorem rangeKept_self (h : IsFinite radius) : RangeKept radius radius := by
  have hdifference := Rounds.sub h h
  have hsize := Rounds.mul (isFinite_abs h) isFinite_radiusTolerance
  have hnone : value (radius - radius) = 0 := by
    rw [sub_self] at hdifference
    exact hdifference.value_eq .zero
  rw [RangeKept, le_iff_value (isNumber_abs hdifference.isNumber) hsize.isNumber,
    value_abs hdifference.isNumber, hnone, abs_zero]
  refine hsize.nonneg ?_
  rw [value_abs h.isNumber, value_radiusTolerance]
  positivity

/-- What is not a number is not kept. -/
theorem isNumber_of_rangeKept (h : RangeKept radius requested) : Scalar.isNumber radius = true :=
  isNumber_of_abs (LawfulScalar.isNumber_of_mul (LawfulScalar.isNumber_of_le h).2).1

end Step

section Requests

variable {l : Light Float32} {requested : Float32}

/-- The light after a request for another range has been stored. -/
def withRadius (l : Light Float32) (requested : Float32) : Light Float32 :=
  { l with radius := Scalar.maximum requested 0.0, updateQueued := true }

theorem setRadius_of_rangeKept (h : RangeKept l.radius (Scalar.maximum requested 0.0)) :
    l.setRadius requested = (l, false) :=
  if_pos h

theorem setRadius_of_not_rangeKept (h : ¬RangeKept l.radius (Scalar.maximum requested 0.0)) :
    l.setRadius requested = (l.withRadius requested, true) :=
  if_neg h

/-- The range is stored and an update queued, or the light stays as it is. -/
theorem setRadius_cases (hrequested : IsFinite requested) :
    l.setRadius requested = (l, false) ∨
      Scalar.maximum requested 0.0 ≠ l.radius ∧
        l.setRadius requested = (l.withRadius requested, true) := by
  by_cases h : RangeKept l.radius (Scalar.maximum requested 0.0)
  · exact Or.inl (setRadius_of_rangeKept h)
  · refine Or.inr ⟨fun hsame => h ?_, setRadius_of_not_rangeKept h⟩
    rw [← hsame]
    exact rangeKept_self (isFinite_maximum_zero hrequested)

/-- A range is the one that was requested or finite and within a thousandth of it, up to rounding. -/
def Follows (radius requested : Float32) : Prop :=
  radius = Scalar.maximum requested 0.0 ∨
    IsFinite radius ∧
      |value radius - value (Scalar.maximum requested 0.0)| ≤
        |value radius| * (10000002 / 10000000000) + 1 / 2 ^ 148

/-- A range that is not infinite follows a request, and it does not become infinite. -/
theorem follows_setRadius (h : isInfinite l.radius = false) (hrequested : IsFinite requested) :
    Follows (l.setRadius requested).1.radius requested ∧
      isInfinite (l.setRadius requested).1.radius = false := by
  have hfinite := isFinite_maximum_zero hrequested
  by_cases hkept : RangeKept l.radius (Scalar.maximum requested 0.0)
  · have hradius := isFinite_of_not_isInfinite (isNumber_of_rangeKept hkept) h
    rw [setRadius_of_rangeKept hkept]
    exact ⟨Or.inr ⟨hradius, near_of_rangeKept hradius hfinite hkept⟩, h⟩
  · rw [setRadius_of_not_rangeKept hkept]
    exact ⟨Or.inl rfl, not_isInfinite_of_isFinite hfinite⟩

/-- The light after some requests for its range. -/
def setRadii (l : Light Float32) (requests : List Float32) : Light Float32 :=
  requests.foldl (fun l requested => (l.setRadius requested).1) l

theorem setRadii_concat (l : Light Float32) (requests : List Float32) (requested : Float32) :
    l.setRadii (requests ++ [requested]) = ((l.setRadii requests).setRadius requested).1 :=
  List.foldl_concat _ _ _ _

theorem setRadii_of_isInfinite (h : isInfinite l.radius = true) {requests : List Float32}
    (hrequests : ∀ r ∈ requests, IsFinite r) : l.setRadii requests = l := by
  induction requests using List.reverseRecOn with
  | nil => rfl
  | append_singleton requests requested ih =>
      have hfinite := isFinite_maximum_zero (hrequests requested (by simp))
      rw [setRadii_concat, ih fun r hr => hrequests r (List.mem_append_left _ hr),
        setRadius_of_rangeKept (rangeKept_of_isInfinite h hfinite)]

theorem not_isInfinite_setRadii (h : isInfinite l.radius = false) {requests : List Float32}
    (hrequests : ∀ r ∈ requests, IsFinite r) : isInfinite (l.setRadii requests).radius = false := by
  induction requests using List.reverseRecOn with
  | nil => exact h
  | append_singleton requests requested ih =>
      rw [setRadii_concat]
      exact (follows_setRadius (ih fun r hr => hrequests r (List.mem_append_left _ hr))
        (hrequests requested (by simp))).2

/-- A request for a range is stored, with an update queued, or changes nothing; and after any run of
requests the range follows the last one.  An infinite range is the exception: it is kept for good. -/
theorem setRadius_follows (l : Light Float32) :
    (∀ requested, IsFinite requested →
      ((l.setRadius requested).2 = true ↔ (l.setRadius requested).1.radius ≠ l.radius) ∧
      ((l.setRadius requested).2 = true → (l.setRadius requested).1 = l.withRadius requested) ∧
      ((l.setRadius requested).2 = false → (l.setRadius requested).1 = l)) ∧
    (isInfinite l.radius = false → ∀ requests last, (∀ r ∈ requests ++ [last], IsFinite r) →
      Follows (l.setRadii (requests ++ [last])).radius last) ∧
    (isInfinite l.radius = true → ∀ requests, (∀ r ∈ requests, IsFinite r) →
      l.setRadii requests = l) := by
  refine ⟨fun requested hrequested => ?_, fun h requests last hrequests => ?_,
    fun h requests hrequests => setRadii_of_isInfinite h hrequests⟩
  · rcases @setRadius_cases l requested hrequested with hkept | ⟨hother, hstored⟩
    · rw [hkept]
      exact ⟨iff_of_false Bool.false_ne_true (not_not.mpr rfl), fun h => Bool.noConfusion h,
        fun _ => rfl⟩
    · rw [hstored]
      exact ⟨iff_of_true rfl hother, fun _ => rfl, fun h => Bool.noConfusion h⟩
  · rw [setRadii_concat]
    refine (follows_setRadius (not_isInfinite_setRadii h ?_) (hrequests last (by simp))).1
    exact fun r hr => hrequests r (List.mem_append_left _ hr)

/-- A light with an infinite range. -/
def endless : Light Float32 := { standard with radius := 1e39 }

theorem setRadius_follows_lamp :
    ((standard : Light Float32).setRadius 8.0).1 = standard.withRadius 8.0 ∧
      Follows ((standard : Light Float32).setRadii [8.0, 8.002]).radius 8.002 ∧
      endless.setRadii [5.0, 8.0] = endless := by
  refine ⟨?_, ?_, ?_⟩
  · exact ((setRadius_follows standard).1 8.0 (by decide +kernel)).2.1 (by decide +kernel)
  · exact (setRadius_follows standard).2.1 (by decide +kernel) [8.0] 8.002 (by decide +kernel)
  · exact (setRadius_follows endless).2.2 (by decide +kernel) [5.0, 8.0] (by decide +kernel)

/-- An infinite range is not followed by any other one. -/
theorem setRadius_endless :
    isInfinite endless.radius = true ∧ endless.setRadius 5.0 = (endless, false) ∧
      ¬Follows endless.radius 5.0 := by
  refine ⟨by decide +kernel, setRadius_of_rangeKept (by decide +kernel), ?_⟩
  rintro (hstored | ⟨hfinite, -⟩)
  · exact absurd hstored (by decide +kernel)
  · exact absurd hfinite (by decide +kernel)

end Requests
end Light
end Penumbra
