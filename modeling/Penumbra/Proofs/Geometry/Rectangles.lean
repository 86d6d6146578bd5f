import Mathlib.Algebra.Order.Field.Basic
import Penumbra.Geometry.Circle
import Penumbra.Proofs.Geometry.Boxes

/-!
# Points of rectangles and discs

A box stands for the rectangle between its sides, and a turned box for that rectangle where it is
turned to.  An affine map takes the rectangle to something between the images of its corners, so
that the box around the images contains all of it and not only the corners.  A disc with a point in a box
reaches the point of the box that is nearest to its centre.

**Results**

* `Box2.Covers`, `RotatedBox.Covers`: the points of a rectangle.
* `Box2.contains_transformed_of_covers`, `RotatedBox.contains_transformed_of_covers`,
  `RotatedBox.contains_boundingBox`: the box around an image of a rectangle contains that image.
* `Circle.intersectsBox?_of_contains`: the test of a circle and a box misses no common point.
-/

namespace Penumbra

variable {K : Type} [ExactScalar K]

namespace Box2

/-- The points of the rectangle between the sides of a box, whichever way round these are given. -/
def Covers (b : Box2 K) (p : Vec2 K) : Prop :=
  (min b.left b.right ≤ p.x ∧ p.x ≤ max b.left b.right) ∧
    min b.bottom b.top ≤ p.y ∧ p.y ≤ max b.bottom b.top

/-- The box around the images of the corners contains the image of the whole rectangle. -/
theorem contains_transformed_of_covers {b : Box2 K} {p : Vec2 K} (h : b.Covers p) (m : Affine K) :
    (b.transformed m).contains (m.apply p) = true := by
  obtain ⟨⟨hleft, hright⟩, hbottom, htop⟩ := h
  obtain ⟨s, hs, hs', hx⟩ := exists_ratio hleft hright
  obtain ⟨t, ht, ht', hy⟩ := exists_ratio hbottom htop
  -- The point divides a segment from the lower to the upper side.
  let low := b.bottomLeft.lerp b.bottomRight s
  let high := b.topLeft.lerp b.topRight s
  have hlow : b.bottomLeft.OnSegment b.bottomRight low := ⟨s, hs, hs', rfl⟩
  have hhigh : b.topLeft.OnSegment b.topRight high := ⟨s, hs, hs', rfl⟩
  have hp : low.OnSegment high p := by
    refine ⟨t, ht, ht', ?_⟩
    ext
    · simp [low, high, bottomLeft, bottomRight, topLeft, topRight, hx]
    · simp [low, high, bottomLeft, bottomRight, topLeft, topRight, hy]
  have hcorner : ∀ corner ∈ b.corners, (b.transformed m).contains (m.apply corner) = true :=
    fun corner hc => contains_transformed hc m
  simp only [corners, List.forall_mem_cons] at hcorner
  obtain ⟨hbl, hbr, htr, htl, -⟩ := hcorner
  exact contains_of_onSegment (contains_of_onSegment hbl hbr (m.onSegment_apply hlow))
    (contains_of_onSegment htl htr (m.onSegment_apply hhigh)) (m.onSegment_apply hp)

end Box2

namespace RotatedBox

/-- The points of a turned rectangle. -/
def Covers (r : RotatedBox K) (q : Vec2 K) : Prop := ∃ p, r.bounds.Covers p ∧ r.turn p = q

/-- The turn of a rectangle as an affine map. -/
def turning (r : RotatedBox K) : Affine K :=
  Affine.rotationTranslation r.rotation (r.origin - r.origin.rotated r.rotation)

theorem turning_apply (r : RotatedBox K) (p : Vec2 K) : r.turning.apply p = r.turn p := by
  ext
  · simp only [turning, Affine.rotationTranslation, Affine.apply_x, turn, Vec2.add_x, Vec2.sub_x,
      Vec2.sub_y, Vec2.rotated_x]
    ring
  · simp only [turning, Affine.rotationTranslation, Affine.apply_y, turn, Vec2.add_y, Vec2.sub_x,
      Vec2.sub_y, Vec2.rotated_y]
    ring

theorem transformed_eq (r : RotatedBox K) (m : Affine K) :
    r.transformed m = r.bounds.transformed (m.compose r.turning) := by
  have hmap : (m.compose r.turning).apply = m.apply ∘ r.turn := by
    funext p
    rw [Affine.apply_compose, turning_apply]
    rfl
  rw [transformed, corners, Box2.transformed, hmap, List.map_map]

theorem boundingBox_eq (r : RotatedBox K) : r.boundingBox = r.bounds.transformed r.turning := by
  have hmap : r.turning.apply = r.turn := funext r.turning_apply
  rw [boundingBox, corners, Box2.transformed, hmap]

theorem contains_transformed_of_covers {r : RotatedBox K} {q : Vec2 K} (h : r.Covers q)
    (m : Affine K) : (r.transformed m).contains (m.apply q) = true := by
  obtain ⟨p, hp, rfl⟩ := h
  have himage := Box2.contains_transformed_of_covers hp (m.compose r.turning)
  rwa [Affine.apply_compose, turning_apply, ← transformed_eq] at himage

theorem contains_boundingBox {r : RotatedBox K} {q : Vec2 K} (h : r.Covers q) :
    r.boundingBox.contains q = true := by
  obtain ⟨p, hp, rfl⟩ := h
  have himage := Box2.contains_transformed_of_covers hp r.turning
  rwa [turning_apply, ← boundingBox_eq] at himage

end RotatedBox

namespace Circle

/-- No value of an interval is nearer than the one that a value is clamped to. -/
theorem square_clamp_le {low high a q : K} (hlow : low ≤ q) (hhigh : q ≤ high) :
    (Scalar.clamp low high a - a) * (Scalar.clamp low high a - a) ≤ (q - a) * (q - a) := by
  rcases lt_or_ge a low with ha | ha
  · have hclamp : Scalar.clamp low high a = low := by
      rw [Scalar.clamp, if_pos ha, if_neg (not_lt.mpr (hlow.trans hhigh))]
    rw [hclamp]
    exact mul_self_le_mul_self (sub_nonneg.mpr ha.le) (sub_le_sub_right hlow a)
  · rcases lt_or_ge high a with ha' | ha'
    · have hclamp : Scalar.clamp low high a = high := by
        rw [Scalar.clamp, if_neg (not_lt.mpr ha), if_pos ha']
      have hdistance : (a - high) * (a - high) ≤ (a - q) * (a - q) :=
        mul_self_le_mul_self (sub_nonneg.mpr ha'.le) (sub_le_sub_left hhigh a)
      rw [hclamp]
      linarith
    · have hclamp : Scalar.clamp low high a = a := by
        rw [Scalar.clamp, if_neg (not_lt.mpr ha), if_neg (not_lt.mpr ha')]
      rw [hclamp, sub_self, mul_zero]
      exact mul_self_nonneg _

/-- A circle whose disc has a point in a box is found to intersect the box. -/
theorem intersectsBox?_of_contains {c : Circle K} {b : Box2 K} {q : Vec2 K}
    (hq : b.contains q = true) (hnear : c.center.distanceSquared q ≤ c.radius * c.radius) :
    c.intersectsBox? b = some true := by
  rw [Box2.contains_iff] at hq
  obtain ⟨⟨hleft, hright⟩, hbottom, htop⟩ := hq
  have hx := square_clamp_le (a := c.center.x) hleft hright
  have hy := square_clamp_le (a := c.center.y) hbottom htop
  have hsum : (c.center.x - q.x) * (c.center.x - q.x) + (c.center.y - q.y) * (c.center.y - q.y) ≤
      c.radius * c.radius := hnear
  have hnearest : (Vec2.mk (Scalar.clamp b.left b.right c.center.x)
      (Scalar.clamp b.bottom b.top c.center.y)).distanceSquared c.center ≤ c.radius * c.radius := by
    simp only [Vec2.distanceSquared, Vec2.lengthSquared, Vec2.sub_x, Vec2.sub_y]
    linarith
  simp only [intersectsBox?, Scalar.clamp?, if_pos (hleft.trans hright),
    if_pos (hbottom.trans htop)]
  exact congrArg some (decide_eq_true hnearest)

end Circle
end Penumbra
