import Mathlib.Data.Real.Basic
import Penumbra.Proofs.Geometry.Boxes
import Penumbra.Proofs.Frame.WallFaces

/-!
# Which faces are turned to the eye

Whether a face of a wall is turned to the eye is read off the cross product of its two corners, after
the wall has been turned and moved so that the eye is the origin.  In exact scalars turns keep cross
products, so the test is one on the box of the wall in its own coordinates: the eye is turned to by
the faces beyond which it stands.

**Results**

* `Vec2.cross_rotated`: turns keep cross products.
* `Prospect.face_eq`: each face is the image of a side of the box, the completed corner included.
* `Prospect.turned_iff`: a face is turned to those who stand beyond it.
* `turned_iff_beyond`: the faces of a wall, from outside and from inside.
-/

namespace Penumbra

variable {K : Type}

namespace Box2

/-- The sides of a box, clockwise. -/
def side (b : Box2 K) : Side → Segment K
  | .north => ⟨b.topLeft, b.topRight⟩
  | .east => ⟨b.topRight, b.bottomRight⟩
  | .south => ⟨b.bottomRight, b.bottomLeft⟩
  | .west => ⟨b.bottomLeft, b.topLeft⟩

/-- Whether a point is beyond the line through a side. -/
def Beyond [LT K] (b : Box2 K) (q : Vec2 K) : Side → Prop
  | .north => b.top < q.y
  | .east => b.right < q.x
  | .south => q.y < b.bottom
  | .west => q.x < b.left

end Box2

/-- Whether a face is turned to the viewer, open or not. -/
def Prospect.turned [Scalar K] (p : Prospect K) (s : Side) : Bool :=
  isFrontFacing (p.face s).first (p.face s).second

variable [ExactScalar K]

theorem Vec2.cross_rotated (v w : Vec2 K) (angle : K) :
    (v.rotated angle).cross (w.rotated angle) = v.cross w := by
  simp only [cross, rotated_x, rotated_y]
  linear_combination (v.x * w.y - v.y * w.x) * Scalar.cos_sq_add_sin_sq angle

namespace Prospect

variable {p : Prospect K} {q : Vec2 K}

/-- Seen from a point of the wall's own coordinates, the wall is turned around this point. -/
theorem place_eq (hq : p.pose.apply q = p.viewer) (v : Vec2 K) :
    p.place v = (v - q).rotated p.pose.rotation := by
  rw [place, ← hq]
  ext
  · simp only [Affine.apply_x, Affine.rotationTranslation, Vec2.sub_x, Vec2.sub_y, Pose.apply_x,
      Vec2.rotated_x]
    ring
  · simp only [Affine.apply_y, Affine.rotationTranslation, Vec2.sub_x, Vec2.sub_y, Pose.apply_y,
      Vec2.rotated_y]
    ring

/-- The completed corner is where the pose brings the fourth corner of the box. -/
theorem bottomLeft_eq (p : Prospect K) : p.bottomLeft = p.place p.box.bottomLeft := by
  ext
  · simp only [bottomLeft, topLeft, topRight, bottomRight, place, Affine.apply_x, Vec2.add_x,
      Vec2.sub_x, Box2.topLeft, Box2.topRight, Box2.bottomRight, Box2.bottomLeft]
    ring
  · simp only [bottomLeft, topLeft, topRight, bottomRight, place, Affine.apply_y, Vec2.add_y,
      Vec2.sub_y, Box2.topLeft, Box2.topRight, Box2.bottomRight, Box2.bottomLeft]
    ring

theorem face_eq (p : Prospect K) (s : Side) :
    p.face s = ⟨p.place (p.box.side s).first, p.place (p.box.side s).second⟩ := by
  cases s <;> simp only [face, bottomLeft_eq] <;> rfl

/-- A face is turned to those who stand beyond it. -/
theorem turned_iff (hq : p.pose.apply q = p.viewer) (hwidth : p.box.left < p.box.right)
    (hheight : p.box.bottom < p.box.top) (s : Side) : p.turned s = true ↔ p.box.Beyond q s := by
  have hcross : p.turned s = true ↔
      0 < ((p.box.side s).first - q).cross ((p.box.side s).second - q) := by
    rw [turned, isFrontFacing, decide_eq_true_iff, face_eq, place_eq hq, place_eq hq,
      Vec2.cross_rotated, Scalar.literal_zero]
  rw [hcross]
  -- The cross product is the length of the side times the distance beyond it.
  cases s with
  | north =>
      have harea : ((p.box.side .north).first - q).cross ((p.box.side .north).second - q) =
          (p.box.right - p.box.left) * (q.y - p.box.top) := by
        simp only [Box2.side, Box2.topLeft, Box2.topRight, Vec2.cross, Vec2.sub_x, Vec2.sub_y]
        ring
      rw [harea, mul_pos_iff_of_pos_left (sub_pos.mpr hwidth), sub_pos]
      rfl
  | east =>
      have harea : ((p.box.side .east).first - q).cross ((p.box.side .east).second - q) =
          (p.box.top - p.box.bottom) * (q.x - p.box.right) := by
        simp only [Box2.side, Box2.topRight, Box2.bottomRight, Vec2.cross, Vec2.sub_x, Vec2.sub_y]
        ring
      rw [harea, mul_pos_iff_of_pos_left (sub_pos.mpr hheight), sub_pos]
      rfl
  | south =>
      have harea : ((p.box.side .south).first - q).cross ((p.box.side .south).second - q) =
          (p.box.right - p.box.left) * (p.box.bottom - q.y) := by
        simp only [Box2.side, Box2.bottomRight, Box2.bottomLeft, Vec2.cross, Vec2.sub_x, Vec2.sub_y]
        ring
      rw [harea, mul_pos_iff_of_pos_left (sub_pos.mpr hwidth), sub_pos]
      rfl
  | west =>
      have harea : ((p.box.side .west).first - q).cross ((p.box.side .west).second - q) =
          (p.box.top - p.box.bottom) * (p.box.left - q.x) := by
        simp only [Box2.side, Box2.bottomLeft, Box2.topLeft, Vec2.cross, Vec2.sub_x, Vec2.sub_y]
        ring
      rw [harea, mul_pos_iff_of_pos_left (sub_pos.mpr hheight), sub_pos]
      rfl

end Prospect

namespace Box2

variable {b : Box2 K} {q : Vec2 K}

theorem not_beyond_opposite (hwidth : b.left < b.right) (hheight : b.bottom < b.top) {s : Side}
    (h : b.Beyond q s) : ¬b.Beyond q s.opposite := by
  intro hopposite
  cases s with
  | north => exact absurd (hheight.trans (h.trans hopposite)) (lt_irrefl _)
  | east => exact absurd (hwidth.trans (h.trans hopposite)) (lt_irrefl _)
  | south => exact absurd (hheight.trans (hopposite.trans h)) (lt_irrefl _)
  | west => exact absurd (hwidth.trans (hopposite.trans h)) (lt_irrefl _)

theorem contains_iff_not_beyond : b.contains q = true ↔ ∀ s, ¬b.Beyond q s := by
  rw [contains_iff]
  constructor
  · rintro ⟨⟨hleft, hright⟩, hbottom, htop⟩ s
    cases s with
    | north => exact not_lt.mpr htop
    | east => exact not_lt.mpr hright
    | south => exact not_lt.mpr hbottom
    | west => exact not_lt.mpr hleft
  · intro h
    exact ⟨⟨not_lt.mp (h .west), not_lt.mp (h .east)⟩, not_lt.mp (h .south), not_lt.mp (h .north)⟩

end Box2

/-- Without a face that is turned to the viewer the whole outline stays. -/
theorem Prospect.outlineFaces_of_not_turned {K : Type} [Scalar K] {p : Prospect K}
    (h : ∀ s, p.turned s = false) : p.outlineFaces = Side.all := by
  have hunseen : ∀ s, p.sees s = false := by
    intro s
    rw [sees, ← turned, h s, Bool.and_false]
  refine List.filter_eq_self.mpr ?_
  intro s _
  simp [outlines, hunseen]

/-- **Which faces are turned to the eye.**  In exact scalars a face of a wall with an area passes the
test just when the eye, in the wall's own coordinates, stands beyond the line through it.  So opposite
faces are never both turned to the eye, and none is just when the eye is in the wall or on its rim.
The wall then bounds the field of view with all four faces, whichever of them are blocked, and in a
frame they are written between those of the walls before and after it. -/
theorem turned_iff_beyond (e : OccluderEntry K) (eye : Eye K)
    (hwidth : e.occluder.bounds.left < e.occluder.bounds.right)
    (hheight : e.occluder.bounds.bottom < e.occluder.bounds.top) :
    let box := e.occluder.bounds
    let blocked := e.occluder.blocked
    let q := e.pose.inverseAffine.apply eye.position
    let p := e.seenFrom eye.position
    e.pose.apply q = eye.position ∧
      (occluderEdges (occluderToEye eye e.pose) box blocked = Side.all.map fun s =>
        ⟨p.face s, blocked.contains s,
          !blocked.contains s.before && p.turned s.before ||
            !blocked.contains s.after && p.turned s.after⟩) ∧
      (p.turned .north = true ↔ box.top < q.y) ∧
      (p.turned .east = true ↔ box.right < q.x) ∧
      (p.turned .south = true ↔ q.y < box.bottom) ∧
      (p.turned .west = true ↔ q.x < box.left) ∧
      (∀ s, p.turned s = true → p.turned s.opposite = false) ∧
      ((∀ s, p.turned s = false) ↔ box.contains q = true) ∧
      (box.contains q = true →
        ∀ (g : OcclusionGeometry K) (index : SpatialIndex K) (area : Box2 K)
          (earlier later : List (OccluderEntry K)),
          (index.occluders eye.map area).take g.maxOccluders = earlier ++ e :: later →
          let outline := fun e' : OccluderEntry K =>
            OcclusionGeometry.doubled (e'.shape eye).fovSegments
          (g.build index eye area).fovVertices =
            earlier.flatMap outline ++ (Side.all.flatMap fun s => [p.face s, p.face s]) ++
              later.flatMap outline) := by
  intro box blocked q p
  have hq : e.pose.apply q = eye.position := e.pose.apply_inverseAffine eye.position
  have hturned : ∀ s, p.turned s = true ↔ box.Beyond q s := Prospect.turned_iff hq hwidth hheight
  have hnone : (∀ s, p.turned s = false) ↔ box.contains q = true := by
    rw [Box2.contains_iff_not_beyond]
    refine forall_congr' fun s => ?_
    rw [← hturned, Bool.not_eq_true]
  refine ⟨hq, e.edges_eq eye, hturned .north, hturned .east, hturned .south, hturned .west, ?_, hnone,
    ?_⟩
  · intro s hs
    rw [Bool.eq_false_iff, Ne, hturned]
    exact Box2.not_beyond_opposite hwidth hheight ((hturned s).mp hs)
  · intro hinside g index area earlier later hwalls outline
    have hall : p.outlineFaces = Side.all := Prospect.outlineFaces_of_not_turned (hnone.mpr hinside)
    have hwall : outline e = Side.all.flatMap fun s => [p.face s, p.face s] := by
      have hshape : (e.shape eye).fovSegments = Side.all.map p.face := by
        rw [e.shape_eq eye, ← hall]
      simp only [outline, hshape]
      exact OcclusionGeometry.doubled_map_face p Side.all
    have hbuilt : (g.build index eye area).fovVertices =
        ((index.occluders eye.map area).take g.maxOccluders).flatMap outline := by
      simp only [OcclusionGeometry.build, OcclusionGeometry.ofShapes, List.flatMap_map, outline]
    rw [hbuilt, hwalls, List.flatMap_append, List.flatMap_cons, hwall, List.append_assoc]

/-- A turned wall with blocked faces all around. -/
noncomputable def pillar : OccluderEntry ℝ := ⟨⟨1⟩, ⟨⟨-1, -1, 1, 1⟩, true, Faces.all⟩, ⟨⟨1, -1⟩, 1⟩⟩

/-- An eye in the middle of it sees all four faces as its outline. -/
theorem turned_iff_beyond_pillar :
    let eye : Eye ℝ := ⟨⟨1, -1⟩, ⟨1⟩, 0, Vec2.one, true, true⟩
    let index : SpatialIndex ℝ := ⟨fun _ _ => [], fun _ _ => [pillar]⟩
    let p := pillar.seenFrom eye.position
    pillar.occluder.bounds.left < pillar.occluder.bounds.right ∧
      pillar.occluder.bounds.bottom < pillar.occluder.bounds.top ∧
      (∀ s, p.turned s = false) ∧
      ((OcclusionGeometry.new 1024).build index eye Box2.zero).fovVertices =
        Side.all.flatMap fun s => [p.face s, p.face s] := by
  intro eye index p
  have hwidth : pillar.occluder.bounds.left < pillar.occluder.bounds.right := by
    norm_num [pillar]
  have hheight : pillar.occluder.bounds.bottom < pillar.occluder.bounds.top := by
    norm_num [pillar]
  have hmiddle : pillar.pose.inverseAffine.apply eye.position = ⟨0, 0⟩ := by
    have hplace : pillar.pose.apply ⟨0, 0⟩ = eye.position := by
      ext <;> simp [pillar, eye]
    rw [← hplace, Pose.inverseAffine_apply]
  have hinside : pillar.occluder.bounds.contains ⟨0, 0⟩ = true := by
    rw [Box2.contains_iff]
    norm_num [pillar]
  obtain ⟨-, -, -, -, -, -, -, hnone, hbuilt⟩ := turned_iff_beyond pillar eye hwidth hheight
  rw [hmiddle] at hnone hbuilt
  refine ⟨hwidth, hheight, hnone.mpr hinside, ?_⟩
  exact (hbuilt hinside (OcclusionGeometry.new 1024) index Box2.zero [] [] rfl).trans
    (List.append_nil _)

end Penumbra
