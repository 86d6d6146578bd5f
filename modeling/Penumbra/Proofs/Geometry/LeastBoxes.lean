import Penumbra.Geometry.RotatedBox
import Penumbra.Proofs.Geometry.Overlap

/-!
# The smallest box around points

A box around points is made by extending the box of the first point by one point after the other.
Whatever the points are, each side of it stays the outermost coordinate of the points so far.  From
this all else follows: along each axis the sides bound the least interval around the coordinates
that are numbers, and a box around points with numbers only is a part of each box that contains them.

**Results**

* `Box2.Hull`, `Box2.Hull.extend`, `Box2.Hull.foldl_extend`: what a step keeps, and a run.
* `Box2.hull_boundsOf`: the box around points.
* `Box2.LeastAround`, `Box2.Hull.leastAround`: the smallest box around points.
* `Box2.LeastOver`, `Box2.Hull.leastOver`: the smallest box around points and another box.
* `Box2.LeastOver.beq`: there is only one such box, whatever the order of the points is.
-/

namespace Penumbra

variable {K : Type} [Scalar K]

namespace Box2

/-- The sides of a box are the outermost coordinates of some points. -/
structure Hull (b : Box2 K) (points : List (Vec2 K)) : Prop where
  left : Scalar.Lowest b.left (points.map (·.x))
  bottom : Scalar.Lowest b.bottom (points.map (·.y))
  right : Scalar.Highest b.right (points.map (·.x))
  top : Scalar.Highest b.top (points.map (·.y))

/--
The smallest box around points.  Along each axis it is the least interval around the coordinates
that are numbers; among boxes it is the least one as long as the points have no other coordinates.
-/
structure LeastAround (b : Box2 K) (points : List (Vec2 K)) : Prop where
  horizontal : Scalar.LeastInterval b.left b.right (points.map (·.x))
  vertical : Scalar.LeastInterval b.bottom b.top (points.map (·.y))
  ordered : (∀ p ∈ points, p.Numeric) → b.Ordered
  contains : (∀ p ∈ points, p.Numeric) → ∀ p ∈ points, b.contains p = true
  least : (∀ p ∈ points, p.Numeric) → ∀ outer : Box2 K,
    (∀ p ∈ points, outer.contains p = true) → b.PartOf outer

/-- The smallest box that contains some points and of which another box is a part. -/
structure LeastOver (b base : Box2 K) (points : List (Vec2 K)) : Prop where
  base_partOf : base.PartOf b
  contains : ∀ p ∈ points, b.contains p = true
  least : ∀ outer : Box2 K, base.PartOf outer → (∀ p ∈ points, outer.contains p = true) →
    b.PartOf outer

variable {b base : Box2 K} {points : List (Vec2 K)}

/-- Each side of the smallest box around points goes through a point. -/
theorem Hull.exists_points (h : b.Hull points) :
    ((∃ p ∈ points, p.x = b.left) ∧ ∃ p ∈ points, p.x = b.right) ∧
      (∃ p ∈ points, p.y = b.bottom) ∧ ∃ p ∈ points, p.y = b.top :=
  ⟨⟨List.mem_map.mp h.left.mem, List.mem_map.mp h.right.mem⟩,
    List.mem_map.mp h.bottom.mem, List.mem_map.mp h.top.mem⟩

theorem Hull.contains (h : b.Hull points) {p : Vec2 K} (hp : p ∈ points) (hnumeric : p.Numeric) :
    b.contains p = true := by
  have hx : p.x ∈ points.map (·.x) := List.mem_map_of_mem hp
  have hy : p.y ∈ points.map (·.y) := List.mem_map_of_mem hp
  rw [contains_eq_true_iff]
  exact ⟨⟨h.left.le _ hx hnumeric.x, h.right.le _ hx hnumeric.x⟩,
    h.bottom.le _ hy hnumeric.y, h.top.le _ hy hnumeric.y⟩

variable [OrderedScalar K]

theorem hull_ofPoint (p : Vec2 K) : (ofPoint p).Hull [p] where
  left := Scalar.Lowest.single p.x
  bottom := Scalar.Lowest.single p.y
  right := Scalar.Highest.single p.x
  top := Scalar.Highest.single p.y

/-- A box with its sides in order is that of its corners: all lie in it, and one on each side. -/
theorem hull_corners (h : b.Ordered) : b.Hull b.corners := by
  have hx : ∀ x ∈ b.corners.map (·.x), b.left ≤ x ∧ x ≤ b.right := by
    rw [List.forall_mem_map]
    exact fun p hp => (contains_eq_true_iff.mp (contains_corner h hp)).1
  have hy : ∀ y ∈ b.corners.map (·.y), b.bottom ≤ y ∧ y ≤ b.top := by
    rw [List.forall_mem_map]
    exact fun p hp => (contains_eq_true_iff.mp (contains_corner h hp)).2
  exact
    { left := ⟨by simp [corners, bottomLeft], fun x hmem _ => (hx x hmem).1⟩
      bottom := ⟨by simp [corners, bottomLeft], fun y hmem _ => (hy y hmem).1⟩
      right := ⟨by simp [corners, topRight], fun x hmem _ => (hx x hmem).2⟩
      top := ⟨by simp [corners, topRight], fun y hmem _ => (hy y hmem).2⟩ }

/-- Extending a box by a point keeps its sides outermost. -/
theorem Hull.extend (h : b.Hull points) (p : Vec2 K) : (b.extend p).Hull (points ++ [p]) where
  left := by
    rw [List.map_append]
    exact h.left.extend p.x
  bottom := by
    rw [List.map_append]
    exact h.bottom.extend p.y
  right := by
    rw [List.map_append]
    exact h.right.extend p.x
  top := by
    rw [List.map_append]
    exact h.top.extend p.y

theorem Hull.foldl_extend (h : b.Hull points) (more : List (Vec2 K)) :
    (more.foldl Box2.extend b).Hull (points ++ more) := by
  -- The points so far grow with the box, so that both are generalized.
  induction more generalizing b points with
  | nil =>
      rwa [List.append_nil]
  | cons p rest ih =>
      rw [List.append_cons]
      exact ih (h.extend p)

theorem hull_boundsOf (h : points ≠ []) : (boundsOf points).Hull points := by
  cases points with
  | nil =>
      exact absurd rfl h
  | cons p rest =>
      exact (hull_ofPoint p).foldl_extend rest

theorem Hull.ordered (h : b.Hull points) (hnumeric : ∀ p ∈ points, p.Numeric) : b.Ordered := by
  obtain ⟨⟨⟨p, hp, -⟩, -⟩, -⟩ := h.exists_points
  exact ordered_of_contains (h.contains hp (hnumeric p hp))

/-- Another box around the points has its sides beyond the points that the sides go through. -/
theorem Hull.partOf (h : b.Hull points) (hnumeric : ∀ p ∈ points, p.Numeric) {outer : Box2 K}
    (houter : ∀ p ∈ points, outer.contains p = true) : b.PartOf outer := by
  obtain ⟨⟨⟨l, hl, hleft⟩, r, hr, hright⟩, ⟨d, hd, hbottom⟩, u, hu, htop⟩ := h.exists_points
  rw [partOf_iff (h.ordered hnumeric), ← hleft, ← hright, ← hbottom, ← htop]
  exact ⟨⟨(contains_eq_true_iff.mp (houter l hl)).1.1, (contains_eq_true_iff.mp (houter r hr)).1.2⟩,
    (contains_eq_true_iff.mp (houter d hd)).2.1, (contains_eq_true_iff.mp (houter u hu)).2.2⟩

theorem Hull.leastAround (h : b.Hull points) : b.LeastAround points where
  horizontal := Scalar.leastInterval h.left h.right
  vertical := Scalar.leastInterval h.bottom h.top
  ordered := h.ordered
  contains hnumeric _ hp := h.contains hp (hnumeric _ hp)
  least hnumeric _ := h.partOf hnumeric

theorem leastAround_boundsOf (h : points ≠ []) : (boundsOf points).LeastAround points :=
  (hull_boundsOf h).leastAround

theorem numeric_corner (h : b.Ordered) : ∀ p ∈ b.corners, p.Numeric := by
  intro p hp
  obtain ⟨⟨hleft, -⟩, hbottom, -⟩ := contains_eq_true_iff.mp (contains_corner h hp)
  exact ⟨(LawfulScalar.isNumber_of_le hleft).2, (LawfulScalar.isNumber_of_le hbottom).2⟩

/-- A box is a part of each box that contains its corners. -/
theorem partOf_of_corners {inner outer : Box2 K} (h : inner.Ordered)
    (hcorners : ∀ p ∈ inner.corners, outer.contains p = true) : inner.PartOf outer :=
  (hull_corners h).partOf (numeric_corner h) hcorners

theorem Hull.leastOver (hbase : base.Ordered) (h : b.Hull (base.corners ++ points))
    (hnumeric : ∀ p ∈ points, p.Numeric) : b.LeastOver base points where
  base_partOf := partOf_of_corners hbase fun p hp =>
    h.contains (List.mem_append_left _ hp) (numeric_corner hbase p hp)
  contains p hp := h.contains (List.mem_append_right _ hp) (hnumeric p hp)
  least outer houter hpoints := by
    refine h.partOf ?_ ?_
    · rw [List.forall_mem_append]
      exact ⟨numeric_corner hbase, hnumeric⟩
    · rw [List.forall_mem_append]
      exact ⟨fun p hp => houter p (contains_corner hbase hp), hpoints⟩

/-- The smallest box does not depend on the order of the points. -/
theorem LeastOver.beq {b' : Box2 K} {points' : List (Vec2 K)} (hbase : base.Ordered)
    (h : b.LeastOver base points) (h' : b'.LeastOver base points')
    (hsame : ∀ p, p ∈ points ↔ p ∈ points') : (b == b') = true := by
  have hb := hbase.of_partOf h.base_partOf
  refine beq_of_partOf hb (h.least b' h'.base_partOf ?_) (h'.least b h.base_partOf ?_)
  · exact fun p hp => h'.contains p ((hsame p).mp hp)
  · exact fun p hp => h.contains p ((hsame p).mpr hp)

end Box2
end Penumbra
