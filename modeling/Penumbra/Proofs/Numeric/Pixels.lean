import Mathlib
import Penumbra.Proofs.Numeric.Counts
import Penumbra.Proofs.Numeric.Exact

/-!
# Whole pixels

A picture is not wider than some limit, up to which counts of pixels are scalars without loss: for
machine scalars it is `2 ^ 24`, for exact ones the largest count there is.  Up to the limit, a count
is at most the whole pixels below a scalar when it is at most the scalar, and at least the whole
pixels above it when it is at least the scalar.

Part of a row of pixels is cut off at the ends of the row.  What is left touches at least one pixel,
and only pixels of the row.

**Results**

* `PixelScalar`: the laws, for machine scalars and for exact ones.
* `Stretch`, `stretch_of_clipped`: what is left of a row, and the pixels that it touches.
-/

namespace Penumbra

/-- Scalars in which pixels are counted up to a limit. -/
class PixelScalar (K : Type) [Scalar K] extends LawfulScalar K where
  limit : Nat
  le_of_lt : ∀ {a b : K}, a < b → a ≤ b
  le_trans : ∀ {a b c : K}, a ≤ b → b ≤ c → a ≤ c
  ofNat_zero : (Scalar.ofNat 0 : K) = 0.0
  isNumber_ofNat : ∀ {n : Nat}, n ≤ limit → Scalar.isNumber (Scalar.ofNat n : K) = true
  le_floorPixels_iff : ∀ {a : K} {n : Nat}, 0.0 ≤ a → n ≤ limit →
    (n ≤ Scalar.floorPixels a ↔ Scalar.ofNat n ≤ a)
  ceilPixels_le_iff : ∀ {a : K} {n size : Nat}, a ≤ Scalar.ofNat size → size ≤ limit → n ≤ size →
    (Scalar.ceilPixels a ≤ n ↔ a ≤ Scalar.ofNat n)

section Machine

open Binary32

theorem lt_two_pow_of_le {n : Nat} (h : n ≤ 16777216) : n < 2 ^ 100 :=
  h.trans_lt (by norm_num)

instance : PixelScalar Float32 where
  limit := 16777216
  le_of_lt {a b} h := by
    obtain ⟨ha, hb⟩ := LawfulScalar.isNumber_of_lt h
    exact (le_iff_value ha hb).mpr ((lt_iff_value ha hb).mp h).le
  le_trans {a b c} hab hbc := by
    obtain ⟨ha, hb⟩ := LawfulScalar.isNumber_of_le hab
    obtain ⟨-, hc⟩ := LawfulScalar.isNumber_of_le hbc
    exact (le_iff_value ha hc).mpr
      (((le_iff_value ha hb).mp hab).trans ((le_iff_value hb hc).mp hbc))
  ofNat_zero := rfl
  isNumber_ofNat h := isNumber_ofNat (lt_two_pow_of_le h)
  le_floorPixels_iff {a n} ha hn := by
    obtain ⟨hzero, hnumber⟩ := LawfulScalar.isNumber_of_le ha
    have hvalue : value 0.0 ≤ value a := (le_iff_value hzero hnumber).mp ha
    rw [le_iff_value (isNumber_ofNat (lt_two_pow_of_le hn)) hnumber, value_ofNat hn]
    exact le_floorPixels_iff hnumber hvalue hn
  ceilPixels_le_iff {a n size} ha hsize hn := by
    have hlimit := hn.trans hsize
    have hnumber := (LawfulScalar.isNumber_of_le ha).1
    rw [le_iff_value hnumber (isNumber_ofNat (lt_two_pow_of_le hlimit)), value_ofNat hlimit]
    exact ceilPixels_le_iff hnumber hlimit

end Machine

section Exact

variable {K : Type} [ExactScalar K]

instance ExactScalar.lawfulScalar : LawfulScalar K where
  isNumber_of_le _ := ⟨Scalar.isNumber_eq_true _, Scalar.isNumber_eq_true _⟩
  isNumber_of_lt _ := ⟨Scalar.isNumber_eq_true _, Scalar.isNumber_eq_true _⟩
  le_of_not_lt _ _ h := not_lt.mp h
  lt_irrefl := lt_irrefl
  isNumber_of_add _ := ⟨Scalar.isNumber_eq_true _, Scalar.isNumber_eq_true _⟩
  isNumber_of_mul _ := ⟨Scalar.isNumber_eq_true _, Scalar.isNumber_eq_true _⟩

instance ExactScalar.pixelScalar : PixelScalar K where
  limit := maxPixels
  le_of_lt := le_of_lt
  le_trans := le_trans
  ofNat_zero := by
    rw [Scalar.literal_zero]
    exact Nat.cast_zero
  isNumber_ofNat _ := Scalar.isNumber_eq_true _
  le_floorPixels_iff {a n} ha hn := by
    rw [Scalar.literal_zero] at ha
    exact le_min_iff.trans ((and_iff_left hn).trans (Nat.le_floor_iff ha))
  ceilPixels_le_iff {a n size} ha hsize hn := by
    refine min_le_iff.trans (Iff.trans ?_ Nat.ceil_le)
    refine or_iff_left_of_imp fun hmax => ?_
    -- The largest count can only be the size of the picture itself.
    obtain rfl : n = size := by
      omega
    exact Nat.ceil_le.mpr ha

end Exact

section Stretch

variable {K : Type} [Scalar K]

/-- A part of a row of pixels, and the pixels that it touches. -/
structure Stretch (low high : K) (first count size : Nat) : Prop where
  nonneg : 0.0 ≤ low
  lt : low < high
  le : low ≤ high
  le_size : high ≤ Scalar.ofNat size
  count_pos : 1 ≤ count
  within : first + count ≤ size
  first_le : Scalar.ofNat first ≤ low
  le_last : high ≤ Scalar.ofNat (first + count)

variable [PixelScalar K]

namespace Scalar

theorem isNumber_zero : isNumber (0.0 : K) = true := by
  rw [← PixelScalar.ofNat_zero]
  exact PixelScalar.isNumber_ofNat (Nat.zero_le _)

/-- The larger one of two scalars is the first one when it is more than the second one. -/
theorem maximum_eq_left {a b : K} (hb : isNumber b = true) (h : ¬maximum a b ≤ b) :
    maximum a b = a := by
  unfold maximum at h ⊢
  split_ifs at h ⊢
  · exact absurd (le_refl_of_isNumber hb) h
  · rfl
  · exact absurd (le_refl_of_isNumber hb) h

end Scalar

/-- What is left of a part of a row that is cut off at both ends, unless nothing is left. -/
theorem stretch_of_clipped {l r low high : K} {size : Nat} (hsize : size ≤ PixelScalar.limit K)
    (hlow : low = Scalar.maximum l 0.0)
    (hhigh : high = Scalar.maximum (Scalar.minimum r (Scalar.ofNat size)) low)
    (hpart : ¬high ≤ low) :
    Stretch low high (Scalar.floorPixels low)
      (max (Scalar.ceilPixels high - Scalar.floorPixels low) 1) size := by
  have hnonneg : 0.0 ≤ low := by
    rw [hlow]
    exact Scalar.le_maximum_right l Scalar.isNumber_zero
  have hlowNumber := (LawfulScalar.isNumber_of_le hnonneg).2
  have hle_size : high ≤ Scalar.ofNat size := by
    rw [hhigh] at hpart ⊢
    rw [Scalar.maximum_eq_left hlowNumber hpart]
    exact Scalar.minimum_le_right r (PixelScalar.isNumber_ofNat hsize)
  have hhighNumber := (LawfulScalar.isNumber_of_le hle_size).1
  have hlt : low < high := by
    by_contra hnot
    exact hpart (LawfulScalar.le_of_not_lt hhighNumber hlowNumber hnot)
  -- The first pixel is one of the row, so that the laws hold for it.
  have hfirst : Scalar.floorPixels low < size := by
    by_contra hnot
    exact hpart (PixelScalar.le_trans hle_size
      ((PixelScalar.le_floorPixels_iff hnonneg hsize).mp (not_lt.mp hnot)))
  have hfirst_le : Scalar.ofNat (Scalar.floorPixels low) ≤ low :=
    (PixelScalar.le_floorPixels_iff hnonneg (hfirst.le.trans hsize)).mp (Nat.le_refl _)
  have hlast : Scalar.floorPixels low < Scalar.ceilPixels high := by
    by_contra hnot
    exact hpart (PixelScalar.le_trans
      ((PixelScalar.ceilPixels_le_iff hle_size hsize hfirst.le).mp (not_lt.mp hnot)) hfirst_le)
  have hceil : Scalar.ceilPixels high ≤ size :=
    (PixelScalar.ceilPixels_le_iff hle_size hsize (Nat.le_refl _)).mpr hle_size
  have hend : Scalar.floorPixels low + max (Scalar.ceilPixels high - Scalar.floorPixels low) 1 =
      Scalar.ceilPixels high := by
    omega
  refine ⟨hnonneg, hlt, PixelScalar.le_of_lt hlt, hle_size, Nat.le_max_right _ _, ?_, hfirst_le, ?_⟩
  · rw [hend]
    exact hceil
  · rw [hend]
    exact (PixelScalar.ceilPixels_le_iff hle_size hsize hceil).mp (Nat.le_refl _)

end Stretch

end Penumbra
