import Mathlib.Tactic.FieldSimp
import Penumbra.Geometry.Pose
import Penumbra.Proofs.Numeric.Exact

/-!
# Poses as motions of the plane

In exact scalars a pose is a motion: it keeps distances, poses are put together by composing their
motions, and the inverse map of a pose undoes it.  All affine maps take segments to segments.

**Results**

* `exists_ratio`: what is between two ends divides what is between them.
* `Vec2.OnSegment`, `Affine.onSegment_apply`: the points of a segment go along with its ends.
* `Affine.apply_compose`, `Affine.apply_inverse`: one map after another, and the way back.
* `Pose.apply_andThen`: a pose inside another one.
* `Pose.inverseAffine_apply`, `Pose.apply_inverseAffine`: from outer to local coordinates.
* `Pose.distanceSquared_apply`: distances stay.
-/

namespace Penumbra

attribute [ext] Vec2

variable {K : Type} [ExactScalar K]

section Division

/-- What divides two ends is between them. -/
theorem min_le_lerp {a b t : K} (hlow : 0 ≤ t) (hhigh : t ≤ 1) : min a b ≤ a + (b - a) * t := by
  rcases le_total a b with h | h
  · have hpart := mul_nonneg (sub_nonneg.mpr h) hlow
    rw [min_eq_left h]
    linarith
  · have hrest := mul_nonneg (sub_nonneg.mpr h) (sub_nonneg.mpr hhigh)
    rw [min_eq_right h]
    linarith

theorem lerp_le_max {a b t : K} (hlow : 0 ≤ t) (hhigh : t ≤ 1) : a + (b - a) * t ≤ max a b := by
  rcases le_total a b with h | h
  · have hrest := mul_nonneg (sub_nonneg.mpr h) (sub_nonneg.mpr hhigh)
    rw [max_eq_right h]
    linarith
  · have hpart := mul_nonneg (sub_nonneg.mpr h) hlow
    rw [max_eq_left h]
    linarith

theorem exists_ratio_of_lt {a b p : K} (h : a < b) (hlow : a ≤ p) (hhigh : p ≤ b) :
    ∃ t : K, 0 ≤ t ∧ t ≤ 1 ∧ p = a + (b - a) * t := by
  have hlength : 0 < b - a := sub_pos.mpr h
  refine ⟨(p - a) / (b - a), div_nonneg (sub_nonneg.mpr hlow) hlength.le, ?_, ?_⟩
  · rw [div_le_one hlength]
    linarith
  · field_simp
    ring

/-- A scalar between two ends, which may be the same, divides what is between them. -/
theorem exists_ratio {a b p : K} (hlow : min a b ≤ p) (hhigh : p ≤ max a b) :
    ∃ t : K, 0 ≤ t ∧ t ≤ 1 ∧ p = a + (b - a) * t := by
  rcases lt_trichotomy a b with h | rfl | h
  · rw [min_eq_left h.le] at hlow
    rw [max_eq_right h.le] at hhigh
    exact exists_ratio_of_lt h hlow hhigh
  · rw [min_self] at hlow
    rw [max_self] at hhigh
    exact ⟨0, le_refl 0, zero_le_one, by linarith⟩
  · rw [min_eq_right h.le] at hlow
    rw [max_eq_left h.le] at hhigh
    obtain ⟨t, ht, ht', hp⟩ := exists_ratio_of_lt h hlow hhigh
    exact ⟨1 - t, sub_nonneg.mpr ht', sub_le_self 1 ht, by linear_combination hp⟩

end Division

namespace Vec2

@[simp] theorem add_x (v w : Vec2 K) : (v + w).x = v.x + w.x := rfl

@[simp] theorem add_y (v w : Vec2 K) : (v + w).y = v.y + w.y := rfl

@[simp] theorem sub_x (v w : Vec2 K) : (v - w).x = v.x - w.x := rfl

@[simp] theorem sub_y (v w : Vec2 K) : (v - w).y = v.y - w.y := rfl

@[simp] theorem mul_x (v w : Vec2 K) : (v * w).x = v.x * w.x := rfl

@[simp] theorem mul_y (v w : Vec2 K) : (v * w).y = v.y * w.y := rfl

@[simp] theorem lerp_x (v w : Vec2 K) (t : K) : (v.lerp w t).x = v.x + (w.x - v.x) * t := rfl

@[simp] theorem lerp_y (v w : Vec2 K) (t : K) : (v.lerp w t).y = v.y + (w.y - v.y) * t := rfl

@[simp] theorem rotated_x (v : Vec2 K) (angle : K) :
    (v.rotated angle).x = v.x * Scalar.cos angle - v.y * Scalar.sin angle := rfl

@[simp] theorem rotated_y (v : Vec2 K) (angle : K) :
    (v.rotated angle).y = v.x * Scalar.sin angle + v.y * Scalar.cos angle := rfl

/-- The points of the closed segment between two ends, which may be the same. -/
def OnSegment (a b p : Vec2 K) : Prop := ∃ t : K, 0 ≤ t ∧ t ≤ 1 ∧ p = a.lerp b t

@[simp] theorem lerp_zero (a b : Vec2 K) : a.lerp b 0 = a := by
  ext <;> simp

@[simp] theorem lerp_one (a b : Vec2 K) : a.lerp b 1 = b := by
  ext <;> simp

theorem onSegment_left (a b : Vec2 K) : a.OnSegment b a :=
  ⟨0, le_refl 0, zero_le_one, (lerp_zero a b).symm⟩

theorem onSegment_right (a b : Vec2 K) : a.OnSegment b b :=
  ⟨1, zero_le_one, le_refl 1, (lerp_one a b).symm⟩

theorem lengthSquared_rotated (v : Vec2 K) (angle : K) :
    (v.rotated angle).lengthSquared = v.lengthSquared := by
  have hturn := Scalar.cos_sq_add_sin_sq angle
  simp only [lengthSquared, rotated_x, rotated_y]
  linear_combination (v.x * v.x + v.y * v.y) * hturn

/-- A turn and the turn back. -/
theorem rotated_rotated_neg (v : Vec2 K) (angle : K) : (v.rotated angle).rotated (-angle) = v := by
  have hturn := Scalar.cos_sq_add_sin_sq angle
  ext
  · simp only [rotated_x, rotated_y, Scalar.cos_neg, Scalar.sin_neg]
    linear_combination v.x * hturn
  · simp only [rotated_x, rotated_y, Scalar.cos_neg, Scalar.sin_neg]
    linear_combination v.y * hturn

theorem rotated_neg_rotated (v : Vec2 K) (angle : K) : (v.rotated (-angle)).rotated angle = v := by
  have hback := v.rotated_rotated_neg (-angle)
  rwa [neg_neg] at hback

end Vec2

namespace Affine

@[simp] theorem apply_x (m : Affine K) (p : Vec2 K) :
    (m.apply p).x = m.xAxis.x * p.x + m.yAxis.x * p.y + m.origin.x := rfl

@[simp] theorem apply_y (m : Affine K) (p : Vec2 K) :
    (m.apply p).y = m.xAxis.y * p.x + m.yAxis.y * p.y + m.origin.y := rfl

/-- The points of a segment go along with its ends. -/
theorem apply_lerp (m : Affine K) (v w : Vec2 K) (t : K) :
    m.apply (v.lerp w t) = (m.apply v).lerp (m.apply w) t := by
  ext
  · simp only [apply_x, Vec2.lerp_x, Vec2.lerp_y]
    ring
  · simp only [apply_y, Vec2.lerp_x, Vec2.lerp_y]
    ring

theorem apply_compose (m n : Affine K) (p : Vec2 K) :
    (m.compose n).apply p = m.apply (n.apply p) := by
  ext
  · simp only [apply_x, apply_y, compose, linear, Vec2.add_x]
    ring
  · simp only [apply_x, apply_y, compose, linear, Vec2.add_y]
    ring

theorem scaling_apply (factors p : Vec2 K) : (scaling factors).apply p = factors * p := by
  ext <;> simp [scaling, Vec2.zero]

theorem shift_apply (offset p : Vec2 K) : (shift offset).apply p = p + offset := by
  ext <;> simp [shift]

theorem rotation_apply (angle : K) (p : Vec2 K) : (rotation angle).apply p = p.rotated angle := by
  ext
  · simp only [apply_x, rotation, rotationTranslation, Vec2.zero, Vec2.rotated_x,
      Scalar.literal_zero]
    ring
  · simp only [apply_y, rotation, rotationTranslation, Vec2.zero, Vec2.rotated_y,
      Scalar.literal_zero]
    ring

/-- How a map scales areas; negative when it mirrors. -/
def det (m : Affine K) : K := m.xAxis.x * m.yAxis.y - m.xAxis.y * m.yAxis.x

/-- Back and there again, unless the map makes all areas vanish. -/
theorem apply_inverse {m : Affine K} (h : m.det ≠ 0) (p : Vec2 K) :
    m.apply (m.inverse.apply p) = p := by
  have hinverse : m.inverse =
      ⟨⟨m.yAxis.y / m.det, -m.xAxis.y / m.det⟩, ⟨-m.yAxis.x / m.det, m.xAxis.x / m.det⟩,
        ⟨-(m.yAxis.y / m.det * m.origin.x + -m.yAxis.x / m.det * m.origin.y),
          -(-m.xAxis.y / m.det * m.origin.x + m.xAxis.x / m.det * m.origin.y)⟩⟩ := by
    have hdet : m.xAxis.x * m.yAxis.y - m.xAxis.y * m.yAxis.x = m.det := rfl
    have hpositive : ∀ a : K, a * (1.0 / m.det) = a / m.det := by
      intro a
      rw [Scalar.literal_one, mul_one_div]
    have hnegative : ∀ a : K, a * (-1.0 / m.det) = -a / m.det := by
      intro a
      rw [Scalar.literal_one, mul_div_assoc', mul_neg_one]
    simp only [inverse, linear, hdet, hpositive, hnegative]
    rfl
  rw [hinverse]
  ext
  · simp only [apply_x, apply_y]
    field_simp
    rw [det]
    ring
  · simp only [apply_x, apply_y]
    field_simp
    rw [det]
    ring

theorem onSegment_apply (m : Affine K) {a b p : Vec2 K} (h : a.OnSegment b p) :
    (m.apply a).OnSegment (m.apply b) (m.apply p) := by
  obtain ⟨t, hlow, hhigh, rfl⟩ := h
  exact ⟨t, hlow, hhigh, m.apply_lerp a b t⟩

end Affine

namespace Pose

@[simp] theorem apply_x (p : Pose K) (v : Vec2 K) :
    (p.apply v).x = p.position.x + (v.x * Scalar.cos p.rotation - v.y * Scalar.sin p.rotation) :=
  rfl

@[simp] theorem apply_y (p : Pose K) (v : Vec2 K) :
    (p.apply v).y = p.position.y + (v.x * Scalar.sin p.rotation + v.y * Scalar.cos p.rotation) :=
  rfl

theorem toAffine_apply (p : Pose K) (v : Vec2 K) : p.toAffine.apply v = p.apply v := by
  ext
  · simp only [Affine.apply_x, apply_x, toAffine, Affine.rotationTranslation]
    ring
  · simp only [Affine.apply_y, apply_y, toAffine, Affine.rotationTranslation]
    ring

/-- What stands inside something is where both poses bring it. -/
theorem apply_andThen (outer inner : Pose K) (v : Vec2 K) :
    (outer.andThen inner).apply v = outer.apply (inner.apply v) := by
  ext
  · simp only [apply_x, apply_y, andThen, Vec2.add_x, Vec2.rotated_x, Scalar.cos_add,
      Scalar.sin_add]
    ring
  · simp only [apply_x, apply_y, andThen, Vec2.add_y, Vec2.rotated_y, Scalar.cos_add,
      Scalar.sin_add]
    ring

theorem inverseAffine_eq (p : Pose K) :
    p.inverseAffine =
      ⟨⟨Scalar.cos p.rotation, -Scalar.sin p.rotation⟩,
        ⟨Scalar.sin p.rotation, Scalar.cos p.rotation⟩,
        ⟨-(Scalar.cos p.rotation * p.position.x + Scalar.sin p.rotation * p.position.y),
          -(-Scalar.sin p.rotation * p.position.x + Scalar.cos p.rotation * p.position.y)⟩⟩ := by
  have hdet : Scalar.cos p.rotation * Scalar.cos p.rotation -
      Scalar.sin p.rotation * -Scalar.sin p.rotation = 1 := by
    linear_combination Scalar.cos_sq_add_sin_sq p.rotation
  have hpositive : (1.0 : K) / 1 = 1 := by
    norm_num
  have hnegative : (-1.0 : K) / 1 = -1 := by
    norm_num
  simp only [inverseAffine, Affine.inverse, toAffine, Affine.rotationTranslation, hdet, hpositive,
    hnegative, mul_one, mul_neg_one, neg_neg]
  rfl

/-- Back from outer to local coordinates. -/
theorem inverseAffine_apply (p : Pose K) (v : Vec2 K) : p.inverseAffine.apply (p.apply v) = v := by
  have hturn := Scalar.cos_sq_add_sin_sq p.rotation
  rw [inverseAffine_eq]
  ext
  · simp only [Affine.apply_x, apply_x, apply_y]
    linear_combination v.x * hturn
  · simp only [Affine.apply_y, apply_x, apply_y]
    linear_combination v.y * hturn

/-- Back to local coordinates and out again. -/
theorem apply_inverseAffine (p : Pose K) (v : Vec2 K) : p.apply (p.inverseAffine.apply v) = v := by
  have hturn := Scalar.cos_sq_add_sin_sq p.rotation
  rw [inverseAffine_eq]
  ext
  · simp only [Affine.apply_x, Affine.apply_y, apply_x]
    linear_combination (v.x - p.position.x) * hturn
  · simp only [Affine.apply_x, Affine.apply_y, apply_y]
    linear_combination (v.y - p.position.y) * hturn

theorem distanceSquared_apply (p : Pose K) (v w : Vec2 K) :
    (p.apply v).distanceSquared (p.apply w) = v.distanceSquared w := by
  have hdifference : p.apply v - p.apply w = (v - w).rotated p.rotation := by
    ext
    · simp only [Vec2.sub_x, Vec2.sub_y, apply_x, Vec2.rotated_x]
      ring
    · simp only [Vec2.sub_x, Vec2.sub_y, apply_y, Vec2.rotated_y]
      ring
  rw [Vec2.distanceSquared, hdifference, Vec2.lengthSquared_rotated, Vec2.distanceSquared]

end Pose
end Penumbra
