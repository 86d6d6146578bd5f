import Mathlib.Algebra.Order.Field.Basic
import Penumbra.Geometry.Circle
import Penumbra.Proofs.Geometry.LeastBoxes
import Penumbra.Proofs.Geometry.Motions

/-!
# Boxes around things

A query compares boxes instead of what is in them.  It leaves nothing out, because a box around some
points is convex, so that it is also around the segments between them, and because two boxes with a
point in common overlap.

**Results**

* `Box2.contains_boundsOf`, `Box2.contains_transformed`: the box around points contains them.
* `Box2.contains_of_onSegment`: a box contains the segments between its points.
* `Box2.isEmpty_intersect_iff`: when the common part of two boxes has an area.
* `Circle.contains_boundingBox`: the box of a circle contains the disc.
-/

namespace Penumbra

variable {K : Type} [ExactScalar K]

namespace Box2

theorem contains_iff {b : Box2 K} {p : Vec2 K} :
    b.contains p = true ↔ (b.left ≤ p.x ∧ p.x ≤ b.right) ∧ b.bottom ≤ p.y ∧ p.y ≤ b.top :=
  contains_eq_true_iff

theorem contains_of_onSegment {b : Box2 K} {p q r : Vec2 K} (hp : b.contains p = true)
    (hq : b.contains q = true) (hr : p.OnSegment q r) : b.contains r = true := by
  obtain ⟨t, hlow, hhigh, rfl⟩ := hr
  rw [contains_iff] at hp hq ⊢
  obtain ⟨⟨hpl, hpr⟩, hpb, hpt⟩ := hp
  obtain ⟨⟨hql, hqr⟩, hqb, hqt⟩ := hq
  exact ⟨⟨(le_min hpl hql).trans (min_le_lerp hlow hhigh),
      (lerp_le_max hlow hhigh).trans (max_le hpr hqr)⟩,
    (le_min hpb hqb).trans (min_le_lerp hlow hhigh),
    (lerp_le_max hlow hhigh).trans (max_le hpt hqt)⟩

/-- The box around some points contains them. -/
theorem contains_boundsOf {points : List (Vec2 K)} {p : Vec2 K} (h : p ∈ points) :
    (boundsOf points).contains p = true :=
  (hull_boundsOf (List.ne_nil_of_mem h)).contains h
    ⟨Scalar.isNumber_eq_true p.x, Scalar.isNumber_eq_true p.y⟩

theorem contains_transformed {b : Box2 K} {corner : Vec2 K} (h : corner ∈ b.corners)
    (m : Affine K) : (b.transformed m).contains (m.apply corner) = true :=
  contains_boundsOf (List.mem_map_of_mem h)

/-- Whether a box is a part of another one; the sides of neither need to be in order. -/
structure Within (inner outer : Box2 K) : Prop where
  left : outer.left ≤ inner.left
  bottom : outer.bottom ≤ inner.bottom
  right : inner.right ≤ outer.right
  top : inner.top ≤ outer.top

theorem isEmpty_intersect_eq_false_iff {a b : Box2 K} :
    (a.intersect b).isEmpty = false ↔
      max a.left b.left < min a.right b.right ∧ max a.bottom b.bottom < min a.top b.top := by
  have haxis : ∀ low high : K, ¬max high low ≤ low ↔ low < high := by
    intro low high
    rw [max_le_iff, and_iff_left (le_refl low), not_le]
  simp only [isEmpty, intersect, Scalar.maximum_eq_max, Scalar.minimum_eq_min, Bool.or_eq_false_iff,
    decide_eq_false_iff_not, haxis]

/-- The common part of two boxes has no area when no box with an area is a part of both. -/
theorem isEmpty_intersect_iff {a b : Box2 K} :
    (a.intersect b).isEmpty = true ↔
      ¬∃ part : Box2 K, part.left < part.right ∧ part.bottom < part.top ∧
        part.Within a ∧ part.Within b := by
  rw [← Bool.not_eq_false, isEmpty_intersect_eq_false_iff, not_iff_not]
  constructor
  · rintro ⟨hacross, halong⟩
    exact ⟨⟨max a.left b.left, max a.bottom b.bottom, min a.right b.right, min a.top b.top⟩,
      hacross, halong, ⟨le_max_left _ _, le_max_left _ _, min_le_left _ _, min_le_left _ _⟩,
      ⟨le_max_right _ _, le_max_right _ _, min_le_right _ _, min_le_right _ _⟩⟩
  · rintro ⟨part, hacross, halong, ha, hb⟩
    exact ⟨(max_le ha.left hb.left).trans_lt (hacross.trans_le (le_min ha.right hb.right)),
      (max_le ha.bottom hb.bottom).trans_lt (halong.trans_le (le_min ha.top hb.top))⟩

/-- A box with an area overlaps another one around each of its points that lies inside that one. -/
theorem isEmpty_intersect_of_inside {a b : Box2 K} {p : Vec2 K}
    (harea : a.left < a.right ∧ a.bottom < a.top) (hp : a.contains p = true)
    (hinside : (b.left < p.x ∧ p.x < b.right) ∧ b.bottom < p.y ∧ p.y < b.top) :
    (a.intersect b).isEmpty = false := by
  have haxis : ∀ {l r l' r' c : K}, l < r → l ≤ c → c ≤ r → l' < c → c < r' →
      max l l' < min r r' := by
    intro l r l' r' c hlr hl hr hl' hr'
    exact max_lt (lt_min hlr (hl.trans_lt hr')) (lt_min (hl'.trans_le hr) (hl'.trans hr'))
  obtain ⟨⟨hleft, hright⟩, hbottom, htop⟩ := contains_iff.mp hp
  exact isEmpty_intersect_eq_false_iff.mpr
    ⟨haxis harea.1 hleft hright hinside.1.1 hinside.1.2,
      haxis harea.2 hbottom htop hinside.2.1 hinside.2.2⟩

theorem mem_corners_iff {b : Box2 K} {p : Vec2 K} :
    p ∈ b.corners ↔ (p.x = b.left ∨ p.x = b.right) ∧ (p.y = b.bottom ∨ p.y = b.top) := by
  simp only [corners, bottomLeft, bottomRight, topLeft, topRight, List.mem_cons, List.not_mem_nil,
    Vec2.ext_iff, or_false]
  tauto

/-- Both ends of a segment are corners of the box between them. -/
theorem mem_corners_ofCorners (p q : Vec2 K) :
    p ∈ (ofCorners (p.minimum q) (p.maximum q)).corners ∧
      q ∈ (ofCorners (p.minimum q) (p.maximum q)).corners := by
  have hends : ∀ a b : K, (a = min a b ∨ a = max a b) ∧ (b = min a b ∨ b = max a b) := by
    intro a b
    rcases le_total a b with h | h <;> simp [h]
  simp only [mem_corners_iff, ofCorners, Vec2.minimum, Vec2.maximum, Scalar.minimum_eq_min,
    Scalar.maximum_eq_max]
  obtain ⟨hpx, hqx⟩ := hends p.x q.x
  obtain ⟨hpy, hqy⟩ := hends p.y q.y
  exact ⟨⟨hpx, hpy⟩, hqx, hqy⟩

end Box2

namespace RotatedBox

/-- A box that is not turned is where it was. -/
theorem corners_ofBox (b : Box2 K) : (ofBox b).corners = b.corners := by
  have hturn : (ofBox b).turn = id := by
    funext p
    ext <;> simp [turn, ofBox, Vec2.zero]
  rw [corners, hturn, List.map_id]
  rfl

end RotatedBox

namespace Circle

theorem boundingBox_eq (c : Circle K) :
    c.boundingBox = ⟨c.center.x - c.radius, c.center.y - c.radius,
      c.center.x + c.radius, c.center.y + c.radius⟩ := by
  have hhalf : c.radius * 2.0 * 0.5 = c.radius := by
    norm_num
    ring
  simp [boundingBox, Box2.around, Box2.ofCorners, Vec2.splat, Vec2.scale, hhalf]

theorem abs_le_of_square_le {a r : K} (hr : 0 ≤ r) (h : a * a ≤ r * r) : |a| ≤ r := by
  rw [← abs_of_nonneg hr]
  exact abs_le_iff_mul_self_le.mpr h

/-- The box of a circle contains the disc. -/
theorem contains_boundingBox {c : Circle K} (hradius : 0 ≤ c.radius) {p : Vec2 K}
    (h : c.center.distanceSquared p ≤ c.radius * c.radius) : c.boundingBox.contains p = true := by
  have hsum : (c.center.x - p.x) * (c.center.x - p.x) + (c.center.y - p.y) * (c.center.y - p.y) ≤
      c.radius * c.radius := h
  have hx := abs_le.mp (abs_le_of_square_le hradius
    (le_of_add_le_of_nonneg_left hsum (mul_self_nonneg (c.center.y - p.y))))
  have hy := abs_le.mp (abs_le_of_square_le hradius
    (le_of_add_le_of_nonneg_right hsum (mul_self_nonneg (c.center.x - p.x))))
  rw [boundingBox_eq, Box2.contains_iff]
  exact ⟨⟨by linarith, by linarith⟩, by linarith, by linarith⟩

end Circle
end Penumbra
