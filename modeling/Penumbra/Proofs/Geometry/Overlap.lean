import Penumbra.Proofs.Numeric.Extremes
import Penumbra.Proofs.Selection

/-!
# Boxes as sets of points

A box whose sides are in order stands for the points that it contains, and it is told by them: boxes
with the same points have the same sides, up to the sign of a zero.  One test tells whether two boxes
overlap and another function gives their common part, which is clamped so that its sides are in order
even where the boxes are apart.  Both are what they should be for the sets of points, on a shared
side, for a box without size, and for boxes that are apart along one axis only.

**Results**

* `Box2.PartOf`, `Box2.partOf_iff`: parts of boxes, by the points and by the sides.
* `Box2.beq_of_partOf`: boxes that are parts of each other.
* `Box2.intersects_iff_sides`, `Box2.contains_intersect_iff`: the test and the common part.
* `Box2.intersects_of_contains`, `Box2.contains_intersect`: what follows from a common point alone.
* `Box2.meeting_of_ordered`: the intersection of boxes is the intersection of sets of points.
-/

namespace Penumbra

variable {K : Type} [Scalar K]

/-- A point with a number along both axes. -/
structure Vec2.Numeric (p : Vec2 K) : Prop where
  x : Scalar.isNumber p.x = true
  y : Scalar.isNumber p.y = true

instance (p : Vec2 K) : Decidable p.Numeric :=
  decidable_of_iff (Scalar.isNumber p.x = true ∧ Scalar.isNumber p.y = true)
    ⟨fun h => ⟨h.1, h.2⟩, fun h => ⟨h.x, h.y⟩⟩

namespace Box2

variable {a b inner outer : Box2 K} {p : Vec2 K}

/-- All points of a box are points of another one. -/
def PartOf (inner outer : Box2 K) : Prop :=
  ∀ p, inner.contains p = true → outer.contains p = true

theorem PartOf.refl (b : Box2 K) : b.PartOf b := fun _ hp => hp

theorem contains_eq_true_iff : b.contains p = true ↔
    (b.left ≤ p.x ∧ p.x ≤ b.right) ∧ b.bottom ≤ p.y ∧ p.y ≤ b.top := by
  simp [contains, and_assoc]

theorem intersects_eq_true_iff : a.intersects b = true ↔
    (a.left ≤ b.right ∧ b.left ≤ a.right) ∧ a.bottom ≤ b.top ∧ b.bottom ≤ a.top := by
  simp [intersects, and_assoc]

theorem beq_eq_true_iff : (a == b) = true ↔
    ((a.left == b.left) = true ∧ (a.right == b.right) = true) ∧
      (a.bottom == b.bottom) = true ∧ (a.top == b.top) = true := by
  change instBEqBox2.beq a b = true ↔ _
  rw [instBEqBox2.beq.eq_def]
  simp only [Bool.and_eq_true]
  tauto

/-- Overlapping does not depend on which box comes first. -/
theorem intersects_comm (a b : Box2 K) : b.intersects a = a.intersects b := by
  rw [Bool.eq_iff_iff, intersects_eq_true_iff, intersects_eq_true_iff]
  tauto

variable [OrderedScalar K]

/-- A box with a point has its sides in order. -/
theorem ordered_of_contains (h : b.contains p = true) : b.Ordered := by
  obtain ⟨⟨hleft, hright⟩, hbottom, htop⟩ := contains_eq_true_iff.mp h
  exact ⟨OrderedScalar.le_trans hleft hright, OrderedScalar.le_trans hbottom htop⟩

/-- A box with its sides in order contains its corners. -/
theorem contains_corner (h : b.Ordered) (hp : p ∈ b.corners) : b.contains p = true := by
  obtain ⟨hleft, hright⟩ := LawfulScalar.isNumber_of_le h.horizontal
  obtain ⟨hbottom, htop⟩ := LawfulScalar.isNumber_of_le h.vertical
  have hleft_le := Scalar.le_refl_of_isNumber hleft
  have hright_le := Scalar.le_refl_of_isNumber hright
  have hbottom_le := Scalar.le_refl_of_isNumber hbottom
  have htop_le := Scalar.le_refl_of_isNumber htop
  simp only [corners, bottomLeft, bottomRight, topLeft, topRight, List.mem_cons,
    List.not_mem_nil, or_false] at hp
  rw [contains_eq_true_iff]
  rcases hp with rfl | rfl | rfl | rfl
  · exact ⟨⟨hleft_le, h.horizontal⟩, hbottom_le, h.vertical⟩
  · exact ⟨⟨h.horizontal, hright_le⟩, hbottom_le, h.vertical⟩
  · exact ⟨⟨h.horizontal, hright_le⟩, h.vertical, htop_le⟩
  · exact ⟨⟨hleft_le, h.horizontal⟩, h.vertical, htop_le⟩

/-- A box with its sides in order is a part of another one just when its sides lie between those. -/
theorem partOf_iff (h : inner.Ordered) : inner.PartOf outer ↔
    (outer.left ≤ inner.left ∧ inner.right ≤ outer.right) ∧
      outer.bottom ≤ inner.bottom ∧ inner.top ≤ outer.top := by
  constructor
  · intro hpart
    have hlow := hpart inner.bottomLeft (contains_corner h (by simp [corners]))
    have hhigh := hpart inner.topRight (contains_corner h (by simp [corners]))
    rw [contains_eq_true_iff] at hlow hhigh
    exact ⟨⟨hlow.1.1, hhigh.1.2⟩, hlow.2.1, hhigh.2.2⟩
  · rintro ⟨⟨hleft, hright⟩, hbottom, htop⟩ p hp
    rw [contains_eq_true_iff] at hp ⊢
    obtain ⟨⟨hpl, hpr⟩, hpb, hpt⟩ := hp
    exact ⟨⟨OrderedScalar.le_trans hleft hpl, OrderedScalar.le_trans hpr hright⟩,
      OrderedScalar.le_trans hbottom hpb, OrderedScalar.le_trans hpt htop⟩

theorem Ordered.of_partOf (h : inner.Ordered) (hpart : inner.PartOf outer) : outer.Ordered :=
  ordered_of_contains (hpart inner.bottomLeft (contains_corner h (by simp [corners])))

/-- Boxes that are parts of each other are not told apart. -/
theorem beq_of_partOf (ha : a.Ordered) (hab : a.PartOf b) (hba : b.PartOf a) : (a == b) = true := by
  have hb := ha.of_partOf hab
  rw [partOf_iff ha] at hab
  rw [partOf_iff hb] at hba
  obtain ⟨⟨hleft, hright⟩, hbottom, htop⟩ := hab
  obtain ⟨⟨hleft', hright'⟩, hbottom', htop'⟩ := hba
  rw [beq_eq_true_iff]
  exact ⟨⟨OrderedScalar.beq_of_le hleft' hleft, OrderedScalar.beq_of_le hright hright'⟩,
    OrderedScalar.beq_of_le hbottom' hbottom, OrderedScalar.beq_of_le htop htop'⟩

section Intersection

/-- Along one axis, two intervals overlap when the larger low end is at most the smaller high end. -/
theorem overlap_iff {low high low' high' : K} (h : low ≤ high) (h' : low' ≤ high') :
    Scalar.maximum low low' ≤ Scalar.minimum high high' ↔ low ≤ high' ∧ low' ≤ high := by
  obtain ⟨hlow, hhigh⟩ := LawfulScalar.isNumber_of_le h
  obtain ⟨hlow', hhigh'⟩ := LawfulScalar.isNumber_of_le h'
  rw [Scalar.maximum_le_iff hlow hlow', Scalar.le_minimum_iff hhigh hhigh',
    Scalar.le_minimum_iff hhigh hhigh', and_iff_right h, and_iff_left h']

theorem intersects_iff_sides (ha : a.Ordered) (hb : b.Ordered) : a.intersects b = true ↔
    Scalar.maximum a.left b.left ≤ Scalar.minimum a.right b.right ∧
      Scalar.maximum a.bottom b.bottom ≤ Scalar.minimum a.top b.top := by
  rw [intersects_eq_true_iff, overlap_iff ha.horizontal hb.horizontal,
    overlap_iff ha.vertical hb.vertical]

/-- What is between the ends of two intervals that overlap, where the high end is clamped. -/
theorem between_clamped_iff {low high low' high' c : K} (h : low ≤ high) (h' : low' ≤ high')
    (hoverlap : Scalar.maximum low low' ≤ Scalar.minimum high high') :
    Scalar.maximum low low' ≤ c ∧
        c ≤ Scalar.maximum (Scalar.minimum high high') (Scalar.maximum low low') ↔
      (low ≤ c ∧ c ≤ high) ∧ low' ≤ c ∧ c ≤ high' := by
  obtain ⟨hlow, hhigh⟩ := LawfulScalar.isNumber_of_le h
  obtain ⟨hlow', hhigh'⟩ := LawfulScalar.isNumber_of_le h'
  obtain ⟨hmaximum, hminimum⟩ := LawfulScalar.isNumber_of_le hoverlap
  have hclamped : c ≤ Scalar.maximum (Scalar.minimum high high') (Scalar.maximum low low') ↔
      c ≤ Scalar.minimum high high' := by
    constructor
    · intro hc
      exact OrderedScalar.le_trans hc ((Scalar.maximum_le_iff hminimum hmaximum).mpr
        ⟨Scalar.le_refl_of_isNumber hminimum, hoverlap⟩)
    · intro hc
      exact OrderedScalar.le_trans hc (Scalar.le_maximum_left hminimum _)
  rw [hclamped, Scalar.maximum_le_iff hlow hlow', Scalar.le_minimum_iff hhigh hhigh']
  tauto

/-- The common part of boxes that overlap has the points that are in both. -/
theorem contains_intersect_iff (ha : a.Ordered) (hb : b.Ordered) (h : a.intersects b = true)
    (p : Vec2 K) :
    (a.intersect b).contains p = true ↔ a.contains p = true ∧ b.contains p = true := by
  obtain ⟨hacross, halong⟩ := (intersects_iff_sides ha hb).mp h
  simp only [contains_eq_true_iff, intersect]
  rw [between_clamped_iff ha.horizontal hb.horizontal hacross,
    between_clamped_iff ha.vertical hb.vertical halong]
  tauto

/-- The common part has its sides in order, overlap or not. -/
theorem intersect_ordered (ha : a.Ordered) (b : Box2 K) : (a.intersect b).Ordered := by
  have hleft := Scalar.le_maximum_left (LawfulScalar.isNumber_of_le ha.horizontal).1 b.left
  have hbottom := Scalar.le_maximum_left (LawfulScalar.isNumber_of_le ha.vertical).1 b.bottom
  exact ⟨Scalar.le_maximum_right _ (LawfulScalar.isNumber_of_le hleft).2,
    Scalar.le_maximum_right _ (LawfulScalar.isNumber_of_le hbottom).2⟩

/-- Boxes with a point in common overlap. -/
theorem intersects_of_contains (ha : a.contains p = true) (hb : b.contains p = true) :
    a.intersects b = true := by
  rw [contains_eq_true_iff] at ha hb
  obtain ⟨⟨hal, har⟩, hab, hat⟩ := ha
  obtain ⟨⟨hbl, hbr⟩, hbb, hbt⟩ := hb
  rw [intersects_eq_true_iff]
  exact ⟨⟨OrderedScalar.le_trans hal hbr, OrderedScalar.le_trans hbl har⟩,
    OrderedScalar.le_trans hab hbt, OrderedScalar.le_trans hbb hat⟩

/-- The common part of two boxes has the points that both have. -/
theorem contains_intersect (ha : a.contains p = true) (hb : b.contains p = true) :
    (a.intersect b).contains p = true :=
  (contains_intersect_iff (ordered_of_contains ha) (ordered_of_contains hb)
    (intersects_of_contains ha hb) p).mpr ⟨ha, hb⟩

/-- Boxes overlap just when they have a point in common, such as the lower left one of that part. -/
theorem intersects_iff_exists (ha : a.Ordered) (hb : b.Ordered) :
    a.intersects b = true ↔ ∃ p, a.contains p = true ∧ b.contains p = true := by
  constructor
  · intro h
    have hcorner := contains_corner (intersect_ordered ha b)
      (p := (a.intersect b).bottomLeft) (by simp [corners])
    exact ⟨_, (contains_intersect_iff ha hb h _).mp hcorner⟩
  · rintro ⟨p, hpa, hpb⟩
    exact intersects_of_contains hpa hpb

/-- Along an axis without overlap, clamping moves the high end down to the low one. -/
theorem clamped_le {low high low' high' : K} (h : low ≤ high)
    (hapart : ¬Scalar.maximum low low' ≤ Scalar.minimum high high') :
    Scalar.maximum (Scalar.minimum high high') (Scalar.maximum low low') ≤
      Scalar.maximum low low' := by
  obtain ⟨hlow, hhigh⟩ := LawfulScalar.isNumber_of_le h
  have hmaximum := (LawfulScalar.isNumber_of_le (Scalar.le_maximum_left hlow low')).2
  have hminimum := (LawfulScalar.isNumber_of_le (Scalar.minimum_le_left hhigh high')).1
  rw [Scalar.maximum_le_iff hminimum hmaximum]
  exact ⟨(Scalar.le_total_of_isNumber hmaximum hminimum).resolve_left hapart,
    Scalar.le_refl_of_isNumber hmaximum⟩

theorem isEmpty_intersect_of_apart (ha : a.Ordered) (hb : b.Ordered)
    (h : a.intersects b = false) : (a.intersect b).isEmpty = true := by
  have hsides := mt (intersects_iff_sides ha hb).mpr (Bool.eq_false_iff.mp h)
  simp only [isEmpty, Bool.or_eq_true, decide_eq_true_eq]
  rcases not_and_or.mp hsides with hacross | halong
  · exact Or.inl (clamped_le ha.horizontal hacross)
  · exact Or.inr (clamped_le ha.vertical halong)

/-- What the intersection of two boxes is, compared with the points that they contain. -/
structure Meeting (a b : Box2 K) : Prop where
  intersects_iff : a.intersects b = true ↔ ∃ p, a.contains p = true ∧ b.contains p = true
  contains_iff : a.intersects b = true → ∀ p,
    ((a.intersect b).contains p = true ↔ a.contains p = true ∧ b.contains p = true)
  isEmpty : a.intersects b = false → (a.intersect b).isEmpty = true
  ordered : (a.intersect b).Ordered
  /-- The lower left corner is where the larger one of the left and of the bottom sides are. -/
  left : Scalar.Highest (a.intersect b).bottomLeft.x [a.bottomLeft.x, b.bottomLeft.x]
  bottom : Scalar.Highest (a.intersect b).bottomLeft.y [a.bottomLeft.y, b.bottomLeft.y]
  intersects_symm : b.intersects a = a.intersects b
  /-- The sides are the same, up to the sign of a zero. -/
  intersect_symm : a.intersects b = true → (a.intersect b == b.intersect a) = true
  intersects_mono : ∀ a' b' : Box2 K, a.PartOf a' → b.PartOf b' →
    a.intersects b = true → a'.intersects b' = true
  intersect_mono : ∀ a' b' : Box2 K, a.PartOf a' → b.PartOf b' →
    a.intersects b = true → (a.intersect b).PartOf (a'.intersect b')

end Intersection

/--
**Boxes that meet.**  For all boxes with their sides in order, those without size included, the test
for overlapping boxes and their common part agree with the points that the boxes contain.
-/
theorem meeting_of_ordered {a b : Box2 Float32} (ha : a.Ordered) (hb : b.Ordered) : a.Meeting b where
  intersects_iff := intersects_iff_exists ha hb
  contains_iff := contains_intersect_iff ha hb
  isEmpty := isEmpty_intersect_of_apart ha hb
  ordered := intersect_ordered ha b
  left := Scalar.highest_maximum a.left b.left
  bottom := Scalar.highest_maximum a.bottom b.bottom
  intersects_symm := intersects_comm a b
  intersect_symm h := by
    have h' : b.intersects a = true := by rwa [intersects_comm]
    have hsame : ∀ p, (a.intersect b).contains p = true ↔ (b.intersect a).contains p = true := by
      intro p
      rw [contains_intersect_iff ha hb h, contains_intersect_iff hb ha h', and_comm]
    exact beq_of_partOf (intersect_ordered ha b) (fun p => (hsame p).mp) (fun p => (hsame p).mpr)
  intersects_mono a' b' hpa hpb h := by
    obtain ⟨p, hap, hbp⟩ := (intersects_iff_exists ha hb).mp h
    exact intersects_of_contains (hpa p hap) (hpb p hbp)
  intersect_mono a' b' hpa hpb h p hp := by
    obtain ⟨hap, hbp⟩ := (contains_intersect_iff ha hb h p).mp hp
    exact contains_intersect (hpa p hap) (hpb p hbp)

/-- A square, and the square to its right that shares a side with it. -/
def twoSquares : Box2 Float32 × Box2 Float32 :=
  let square : Box2 Float32 := ⟨0.0, 0.0, 1.0, 1.0⟩
  (square, square.translated ⟨1.0, 0.0⟩)

/-- The squares overlap, and their common part has no area. -/
theorem meeting_of_ordered_twoSquares :
    (twoSquares.1.Ordered ∧ twoSquares.2.Ordered) ∧
      (twoSquares.1.intersects twoSquares.2 = true ∧
        (twoSquares.1.intersect twoSquares.2).isEmpty = true) ∧
      twoSquares.1.Meeting twoSquares.2 :=
  have hfirst : twoSquares.1.Ordered := ⟨by decide, by decide⟩
  have hsecond : twoSquares.2.Ordered := ⟨by decide, by decide⟩
  ⟨⟨hfirst, hsecond⟩, by decide, meeting_of_ordered hfirst hsecond⟩

end Box2
end Penumbra
