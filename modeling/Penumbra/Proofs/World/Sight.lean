import Penumbra.Proofs.Geometry.LeastBoxes
import Penumbra.Proofs.Selection
import Penumbra.World.Basic

/-!
# What worlds show to views that are nowhere

The box around a view has its sides in order, unless no corner of the view has a number along one of
the axes.  Turned into the coordinates of a tree such a view has no number left, and overlaps nothing.

**Results**

* `Box2.Around`, `around_boundsOf`: the smallest box around points.
* `RotatedBox.boundingBox_ordered`: when the box around a view has its sides in order.
* `World.lights_eq_nil_of_not_ordered`: a world has no lights for a view without such a box.
-/

namespace Penumbra

variable {K : Type} [Scalar K]

/-- A point without a number along some axis. -/
def Vec2.Undefined (p : Vec2 K) : Prop := Scalar.isNumber p.x = false ∨ Scalar.isNumber p.y = false

/-- Along both axes the sides of a box are in order, unless no point has a number. -/
structure Box2.Around (b : Box2 K) (points : List (Vec2 K)) : Prop where
  horizontal : Scalar.Span b.left b.right (points.map (·.x))
  vertical : Scalar.Span b.bottom b.top (points.map (·.y))

section Boxes

variable [OrderedScalar K]

theorem around_boundsOf {points : List (Vec2 K)} (h : points ≠ []) :
    (Box2.boundsOf points).Around points := by
  have hleast := Box2.leastAround_boundsOf h
  exact ⟨hleast.horizontal.span, hleast.vertical.span⟩

/-- The box around a view is in order, unless no corner of the view is anywhere. -/
theorem RotatedBox.boundingBox_ordered (view : RotatedBox K) :
    view.boundingBox.Ordered ∨ ∀ p ∈ view.corners, p.Undefined := by
  have hcorners : view.corners ≠ [] := by
    simp [corners, Box2.corners]
  obtain ⟨horizontal, vertical⟩ := around_boundsOf hcorners
  rcases horizontal with hhorizontal | ⟨-, -, hx⟩
  · rcases vertical with hvertical | ⟨-, -, hy⟩
    · exact Or.inl ⟨hhorizontal, hvertical⟩
    · exact Or.inr fun p hp => Or.inr (hy p.y (List.mem_map_of_mem hp))
  · exact Or.inr fun p hp => Or.inl (hx p.x (List.mem_map_of_mem hp))

theorem not_isNumber_add {a b : K} (h : Scalar.isNumber a = false ∨ Scalar.isNumber b = false) :
    Scalar.isNumber (a + b) = false := by
  rw [Bool.eq_false_iff]
  intro hsum
  obtain ⟨ha, hb⟩ := LawfulScalar.isNumber_of_add hsum
  simp [ha, hb] at h

theorem not_isNumber_mul {a b : K} (h : Scalar.isNumber b = false) :
    Scalar.isNumber (a * b) = false := by
  rw [Bool.eq_false_iff]
  intro hproduct
  rw [(LawfulScalar.isNumber_of_mul hproduct).2] at h
  cases h

/-- A map takes a point that is nowhere to points without any number. -/
theorem Affine.not_isNumber_apply (m : Affine K) {p : Vec2 K} (h : p.Undefined) :
    Scalar.isNumber (m.apply p).x = false :=
  not_isNumber_add (Or.inl (not_isNumber_add (h.imp not_isNumber_mul not_isNumber_mul)))

theorem RotatedBox.not_isNumber_transformed {view : RotatedBox K}
    (h : ∀ p ∈ view.corners, p.Undefined) (m : Affine K) :
    Scalar.isNumber (view.transformed m).left = false := by
  have himages : view.corners.map m.apply ≠ [] := by
    simp [corners, Box2.corners]
  have hleft := (Box2.leastAround_boundsOf himages).horizontal.isNumber_low_iff
  rw [← Bool.not_eq_true, transformed, hleft]
  rintro ⟨x, hx, hnumber⟩
  obtain ⟨q, hq, rfl⟩ := List.mem_map.mp hx
  obtain ⟨p, hp, rfl⟩ := List.mem_map.mp hq
  rw [m.not_isNumber_apply (h p hp)] at hnumber
  cases hnumber

end Boxes

namespace World

variable [OrderedScalar K]

/-- A world has no lights for a view that is nowhere. -/
theorem lights_eq_nil_of_not_ordered (w : World K) (map : MapId) {view : RotatedBox K}
    (h : ¬view.boundingBox.Ordered) : w.index.lights map view = [] := by
  have hnowhere := view.boundingBox_ordered.resolve_left h
  have hmiss : ∀ (t : Tree K) (b : Box2 K),
      b.intersects (view.transformed t.pose.inverseAffine) = false := by
    intro t b
    have harea := RotatedBox.not_isNumber_transformed hnowhere t.pose.inverseAffine
    simp [Box2.intersects, Scalar.not_le_of_not_isNumber harea]
  have htree : ∀ t : Tree K, treeLights t view = [] := by
    intro t
    simp [treeLights, hmiss]
  simp [index, htree]

end World
end Penumbra
