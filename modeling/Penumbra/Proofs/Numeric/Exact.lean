import Mathlib.Algebra.Order.Archimedean.Real.Basic
import Mathlib.Algebra.Order.Floor.Ring
import Mathlib.Analysis.Complex.Trigonometric
import Mathlib.Analysis.Real.Sqrt
import Mathlib.Data.Rat.Cast.OfScientific
import Mathlib.Tactic.Linarith
import Mathlib.Tactic.LinearCombination
import Mathlib.Tactic.NormNum.OfScientific
import Mathlib.Tactic.Ring
import Penumbra.Numeric.Scalar

/-!
# Exact scalars

Statements about the geometry that are free of rounding are about scalars that are never rounded: an
ordered field with whole parts, and a sine and a cosine that obey the laws of turns of the plane.
The real numbers are such scalars.  Nothing is asked of the square root, so that there may be ones
of which some have no root.

**Results**

* `ExactScalar`: the operations and their laws; they make scalars, and real numbers are such.
* `Scalar.minimum_eq_min`, `Scalar.maximum_eq_max`: exact scalars are numbers and are compared.
* `Scalar.cos_zero`, `Scalar.sin_zero`, `Scalar.cos_neg`, `Scalar.sin_neg`: the turn by nothing and
  the turn back, from the laws.
-/

namespace Penumbra

/-- A type of numbers that are never rounded. -/
class ExactScalar (K : Type) extends Field K, LinearOrder K, IsStrictOrderedRing K, FloorRing K where
  sqrt : K → K
  sin : K → K
  cos : K → K
  cos_sq_add_sin_sq : ∀ a, cos a * cos a + sin a * sin a = 1
  cos_add : ∀ a b, cos (a + b) = cos a * cos b - sin a * sin b
  sin_add : ∀ a b, sin (a + b) = sin a * cos b + cos a * sin b

noncomputable instance : ExactScalar ℝ where
  sqrt := Real.sqrt
  sin := Real.sin
  cos := Real.cos
  cos_sq_add_sin_sq a := by
    rw [← sq, ← sq, Real.cos_sq_add_sin_sq]
  cos_add := Real.cos_add
  sin_add := Real.sin_add

variable {K : Type} [ExactScalar K]

instance ExactScalar.toScalar : Scalar K where
  toAdd := inferInstance
  toSub := inferInstance
  toMul := inferInstance
  toDiv := inferInstance
  toNeg := inferInstance
  toLT := inferInstance
  toLE := inferInstance
  beq a b := decide (a = b)
  toOfScientific := inferInstance
  decLt _ _ := inferInstance
  decLe _ _ := inferInstance
  ofNat := Nat.cast
  sqrt := ExactScalar.sqrt
  sin := ExactScalar.sin
  cos := ExactScalar.cos
  abs a := |a|
  floorPixels a := min ⌊a⌋₊ maxPixels
  ceilPixels a := min ⌈a⌉₊ maxPixels
  totalLe a b := decide (a ≤ b)

instance ExactScalar.lawfulBEq : LawfulBEq K where
  eq_of_beq h := of_decide_eq_true h
  rfl := decide_eq_true rfl

namespace Scalar

section Comparisons

@[simp] theorem isNumber_eq_true (a : K) : isNumber a = true := beq_self_eq_true a

@[simp] theorem minimum_eq_min (a b : K) : minimum a b = min a b := by
  rw [minimum, isNumber_eq_true, if_pos rfl, min_comm]
  exact (min_def_lt b a).symm

@[simp] theorem maximum_eq_max (a b : K) : maximum a b = max a b := by
  rw [maximum, isNumber_eq_true, if_pos rfl]
  exact (max_def_lt a b).symm

@[simp] theorem literal_zero : (0.0 : K) = 0 := by norm_num

@[simp] theorem literal_one : (1.0 : K) = 1 := by norm_num

end Comparisons

section Turns

theorem cos_sq_add_sin_sq (a : K) : cos a * cos a + sin a * sin a = 1 :=
  ExactScalar.cos_sq_add_sin_sq a

theorem cos_add (a b : K) : cos (a + b) = cos a * cos b - sin a * sin b := ExactScalar.cos_add a b

theorem sin_add (a b : K) : sin (a + b) = sin a * cos b + cos a * sin b := ExactScalar.sin_add a b

/-- The laws leave only one turn by nothing. -/
theorem cos_zero_and_sin_zero : cos (0 : K) = 1 ∧ sin (0 : K) = 0 := by
  have hsquares := cos_sq_add_sin_sq (0 : K)
  have hcos := cos_add (0 : K) 0
  have hsin := sin_add (0 : K) 0
  rw [add_zero] at hcos hsin
  generalize cos (0 : K) = c at *
  generalize sin (0 : K) = s at *
  have hproduct : s * (1 - 2 * c) = 0 := by
    linear_combination hsin
  rcases mul_eq_zero.mp hproduct with rfl | hhalf
  · exact ⟨by linarith, rfl⟩
  · -- A cosine of one half would make the square of the sine negative.
    have hc : c = 1 / 2 := by
      linarith
    have hnegative : s * s = -(1 / 4) := by
      rw [hc] at hcos
      linarith
    linarith [mul_self_nonneg s]

@[simp] theorem cos_zero : cos (0 : K) = 1 := cos_zero_and_sin_zero.1

@[simp] theorem sin_zero : sin (0 : K) = 0 := cos_zero_and_sin_zero.2

/-- The laws make the cosine even and the sine odd. -/
theorem cos_neg_and_sin_neg (a : K) : cos (-a) = cos a ∧ sin (-a) = -sin a := by
  have hturn := cos_sq_add_sin_sq a
  have hcos := cos_add a (-a)
  have hsin := sin_add a (-a)
  rw [add_neg_cancel, cos_zero] at hcos
  rw [add_neg_cancel, sin_zero] at hsin
  constructor
  · linear_combination (-cos (-a)) * hturn - cos a * hcos - sin a * hsin
  · linear_combination (-sin (-a)) * hturn + sin a * hcos - cos a * hsin

@[simp] theorem cos_neg (a : K) : cos (-a) = cos a := (cos_neg_and_sin_neg a).1

@[simp] theorem sin_neg (a : K) : sin (-a) = -sin a := (cos_neg_and_sin_neg a).2

end Turns

end Scalar
end Penumbra
