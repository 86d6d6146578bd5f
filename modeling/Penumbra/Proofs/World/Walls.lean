import Mathlib.Algebra.Order.Field.Basic
import Penumbra.Illumination
import Penumbra.Proofs.Geometry.Boxes
import Penumbra.Proofs.Geometry.Segments
import Penumbra.World.Basic

/-!
# Walls between points

Whether a wall stands between two points is asked of few walls: of those whose box, in the
coordinates of their tree, overlaps the box of the segment between the points.  A wall that the
segment touches is never left out, however the tree and the wall are turned: the inverse map of the
tree takes the common point into both boxes.

**Results**

* `World.mem_index_occluders`: what a query answers.
* `Box2.sides`, `polygonEdges_corners`: the edges of a wall are the four sides of its box.
* `OccluderEntry.blocks_iff`: a wall blocks a segment that touches one of its edges.
* `overlaps_of_blocks`: such a wall is not left out.
* `isOccluded_iff`: what stands between two points of a world, without boxes.
-/

namespace Penumbra

/-- What a query answers are the standing walls of the map whose boxes overlap in some tree. -/
theorem World.mem_index_occluders {K : Type} [Scalar K] {w : World K} {map : MapId} {area : Box2 K}
    {e : OccluderEntry K} :
    e ∈ w.index.occluders map area ↔
      ∃ t ∈ w.trees, t.map = map ∧ ∃ s ∈ t.occluders, s.occluder.enabled = true ∧
        (s.occluder.bounds.transformed s.pose.toAffine).intersects
          (area.transformed t.pose.inverseAffine) = true ∧
        e = ⟨s.entity, s.occluder, t.pose.andThen s.pose⟩ := by
  simp only [index, treesOn, treeOccluders, List.mem_flatMap, List.mem_filter, List.mem_map,
    beq_iff_eq, Bool.and_eq_true, and_assoc, eq_comm (a := e)]

section Sides

variable {K : Type}

/-- The four sides of a box: the lower, the right, the upper and the left one. -/
def Box2.sides (b : Box2 K) : List (Vec2 K × Vec2 K) :=
  [(⟨b.left, b.bottom⟩, ⟨b.right, b.bottom⟩), (⟨b.right, b.bottom⟩, ⟨b.right, b.top⟩),
    (⟨b.right, b.top⟩, ⟨b.left, b.top⟩), (⟨b.left, b.top⟩, ⟨b.left, b.bottom⟩)]

/-- The polygon of the images of the corners has the images of the sides. -/
theorem polygonEdges_corners [Scalar K] (b : Box2 K) (f : Vec2 K → Vec2 K) :
    polygonEdges (b.corners.map f) = b.sides.map fun side => (f side.1, f side.2) := rfl

theorem Box2.mem_corners_of_mem_sides [Scalar K] {b : Box2 K} {side : Vec2 K × Vec2 K}
    (h : side ∈ b.sides) : side.1 ∈ b.corners ∧ side.2 ∈ b.corners := by
  simp only [sides, List.mem_cons, List.not_mem_nil, or_false] at h
  rcases h with rfl | rfl | rfl | rfl <;>
    simp [corners, bottomLeft, bottomRight, topRight, topLeft]

end Sides

variable {K : Type} [ExactScalar K]

/-- A wall blocks a segment that shares a point with one of its edges. -/
theorem OccluderEntry.blocks_iff (e : OccluderEntry K) (start finish : Vec2 K) :
    e.blocks start finish = true ↔
      ∃ side ∈ e.occluder.bounds.sides, ∃ p, start.OnSegment finish p ∧
        (e.pose.apply side.1).OnSegment (e.pose.apply side.2) p := by
  simp only [blocks, corners, polygonEdges_corners, List.any_map, Function.comp_def,
    List.any_eq_true, segmentsTouch_iff]

/-- In the coordinates of its tree, a wall that blocks a segment has a box that overlaps the box of
the segment. -/
theorem overlaps_of_blocks {t : Tree K} {s : OccluderSlot K} {start finish : Vec2 K}
    (h : (OccluderEntry.mk s.entity s.occluder (t.pose.andThen s.pose)).blocks start finish = true) :
    (s.occluder.bounds.transformed s.pose.toAffine).intersects
      ((Box2.ofCorners (start.minimum finish) (start.maximum finish)).transformed
        t.pose.inverseAffine) = true := by
  rw [OccluderEntry.blocks_iff] at h
  obtain ⟨side, hside, p, hsight, hwall⟩ := h
  obtain ⟨hfirst, hsecond⟩ := Box2.mem_corners_of_mem_sides hside
  have hlocal : ∀ corner ∈ s.occluder.bounds.corners,
      (s.occluder.bounds.transformed s.pose.toAffine).contains
        (t.pose.inverseAffine.apply ((t.pose.andThen s.pose).apply corner)) = true := by
    intro corner hcorner
    rw [Pose.apply_andThen, Pose.inverseAffine_apply, ← Pose.toAffine_apply]
    exact Box2.contains_transformed hcorner _
  obtain ⟨hstart, hfinish⟩ := Box2.mem_corners_ofCorners start finish
  have hwallBox := Box2.contains_of_onSegment (hlocal _ hfirst) (hlocal _ hsecond)
    (t.pose.inverseAffine.onSegment_apply hwall)
  have hsightBox := Box2.contains_of_onSegment
    (Box2.contains_transformed hstart t.pose.inverseAffine)
    (Box2.contains_transformed hfinish t.pose.inverseAffine)
    (t.pose.inverseAffine.onSegment_apply hsight)
  exact Box2.intersects_of_contains hwallBox hsightBox

/-- In exact scalars something stands between two points of a map just when a standing wall of the
map has one of its four sides, where tree and wall bring it, share a point with the closed segment
between them.  The points may be the same, the wall may be a segment or a point, and the side may be
along the segment. -/
theorem isOccluded_iff (w : World K) (map : MapId) (start finish : Vec2 K) :
    isOccluded w.index map start finish = true ↔
      ∃ t ∈ w.trees, t.map = map ∧ ∃ s ∈ t.occluders, s.occluder.enabled = true ∧
        let place := t.pose.andThen s.pose
        ∃ side ∈ s.occluder.bounds.sides, ∃ p, start.OnSegment finish p ∧
          (place.apply side.1).OnSegment (place.apply side.2) p := by
  rw [isOccluded, List.any_eq_true]
  constructor
  · rintro ⟨e, he, hblocks⟩
    obtain ⟨t, ht, hmap, s, hs, henabled, -, rfl⟩ := World.mem_index_occluders.mp he
    exact ⟨t, ht, hmap, s, hs, henabled, (OccluderEntry.blocks_iff _ _ _).mp hblocks⟩
  · rintro ⟨t, ht, hmap, s, hs, henabled, hsides⟩
    have hblocks : (OccluderEntry.mk s.entity s.occluder (t.pose.andThen s.pose)).blocks
        start finish = true := (OccluderEntry.blocks_iff _ _ _).mpr hsides
    have hentry := World.mem_index_occluders.mpr
      ⟨t, ht, hmap, s, hs, henabled, overlaps_of_blocks hblocks, rfl⟩
    exact ⟨_, hentry, hblocks⟩

end Penumbra
