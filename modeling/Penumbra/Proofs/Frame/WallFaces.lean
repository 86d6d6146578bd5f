import Mathlib.Data.List.Basic
import Mathlib.Data.List.Flatten
import Penumbra.Frame.Occlusion
import Penumbra.Numeric.Single

/-!
# What each wall adds to a frame

The buffers of a frame are filled wall by wall until there is no more room, and what a wall adds
depends on nothing but its box, where it stands, its blocked faces and the point that it is seen
from.  The faces of a wall form a ring: each of them shares a corner with the face before and with
the face after it.  A face is left out of the outline that bounds the field of view only next to a
face that is seen, so that the outline of a wall never falls short of two faces.

**Results**

* `Prospect`: what decides about the contribution of a wall, and its faces.
* `OccluderEntry.shape_eq`: the contribution of a wall, face by face.
* `Prospect.two_le_length_outlineFaces`, `Prospect.outline_or_corner`: what an outline leaves out.
* `OcclusionGeometry.add`, `OcclusionGeometry.addAll`: the buffers wall by wall.
* `OcclusionGeometry.Sized`, `OcclusionGeometry.sized_build`: how many vertices there are.
* `OcclusionGeometry.build_contributions`: all buffers of a frame.
-/

namespace Penumbra

namespace Side

/-- The face at a right angle that comes next, clockwise. -/
def after : Side → Side
  | north => east
  | east => south
  | south => west
  | west => north

/-- The face at a right angle that came last, clockwise. -/
def before : Side → Side
  | north => west
  | east => north
  | south => east
  | west => south

def opposite (s : Side) : Side := s.after.after

theorem mem_all (s : Side) : s ∈ all := by
  cases s <;> decide

end Side

/-- What decides about the contribution of a wall: its box, where it stands, which of its faces are
blocked, and the point that it is seen from. -/
structure Prospect (K : Type) where
  box : Box2 K
  pose : Pose K
  blocked : Side → Bool
  viewer : Vec2 K

variable {K : Type} [Scalar K]

/-- A wall as it is seen from a point. -/
def OccluderEntry.seenFrom (e : OccluderEntry K) (viewer : Vec2 K) : Prospect K :=
  ⟨e.occluder.bounds, e.pose, e.occluder.blocked.contains, viewer⟩

namespace Prospect

/-- Where a point of the wall is, relative to the viewer. -/
def place (p : Prospect K) (point : Vec2 K) : Vec2 K :=
  (Affine.rotationTranslation p.pose.rotation (p.pose.position - p.viewer)).apply point

def topLeft (p : Prospect K) : Vec2 K := p.place p.box.topLeft

def topRight (p : Prospect K) : Vec2 K := p.place p.box.topRight

def bottomRight (p : Prospect K) : Vec2 K := p.place p.box.bottomRight

/-- The last corner completes the parallelogram. -/
def bottomLeft (p : Prospect K) : Vec2 K := p.topLeft + p.bottomRight - p.topRight

def corners (p : Prospect K) : List (Vec2 K) :=
  [p.topLeft, p.topRight, p.bottomRight, p.bottomLeft]

/-- The faces, each from its first to its second corner, clockwise. -/
def face (p : Prospect K) : Side → Segment K
  | .north => ⟨p.topLeft, p.topRight⟩
  | .east => ⟨p.topRight, p.bottomRight⟩
  | .south => ⟨p.bottomRight, p.bottomLeft⟩
  | .west => ⟨p.bottomLeft, p.topLeft⟩

/-- Whether a face is open and turned to the viewer. -/
def sees (p : Prospect K) (s : Side) : Bool :=
  !p.blocked s && isFrontFacing (p.face s).first (p.face s).second

/-- Whether a face bounds the field of view: it is open, or neither face next to it is seen. -/
def outlines (p : Prospect K) (s : Side) : Bool :=
  !p.blocked s || !(p.sees s.before || p.sees s.after)

/-- The faces that cast shadows. -/
def shadowFaces (p : Prospect K) : List Side := Side.all.filter fun s => !p.blocked s

/-- The faces that bound the field of view. -/
def outlineFaces (p : Prospect K) : List Side := Side.all.filter p.outlines

/-- Each of some faces, as two equal vertices. -/
def vertices (p : Prospect K) (faces : List Side) : List (Segment K) :=
  faces.flatMap fun s => [p.face s, p.face s]

/-- A face ends where the next one starts. -/
theorem second_face (p : Prospect K) (s : Side) : (p.face s).second = (p.face s.after).first := by
  cases s <;> rfl

theorem first_face (p : Prospect K) (s : Side) : (p.face s).first = (p.face s.before).second := by
  cases s <;> rfl

theorem blocked_of_not_outlines {p : Prospect K} {s : Side} (h : p.outlines s = false) :
    p.blocked s = true ∧ (p.sees s.before = true ∨ p.sees s.after = true) := by
  simpa only [outlines, Bool.or_eq_false_iff, Bool.not_eq_false', Bool.or_eq_true] using h

/-- Between two opposite faces that are left out both others stay: they are next to no open face. -/
theorem outlines_of_opposite {p : Prospect K} {s : Side} (h : p.outlines s = false)
    (hopposite : p.outlines s.opposite = false) (t : Side) (ht : t.before = s ∨ t.after = s) :
    p.outlines t = true := by
  obtain ⟨hblocked, -⟩ := blocked_of_not_outlines h
  obtain ⟨hblocked', -⟩ := blocked_of_not_outlines hopposite
  have hunseen : p.sees s = false ∧ p.sees s.opposite = false := by
    simp [sees, hblocked, hblocked']
  have hnext : (t.before = s ∧ t.after = s.opposite) ∨ (t.before = s.opposite ∧ t.after = s) := by
    revert ht
    cases s <;> cases t <;> decide
  rcases hnext with ⟨hb, ha⟩ | ⟨hb, ha⟩ <;> simp [outlines, hb, ha, hunseen]

/-- At least two faces of each wall bound the field of view. -/
theorem two_le_length_outlineFaces (p : Prospect K) : 2 ≤ p.outlineFaces.length := by
  have hvertical : p.outlines .north = false → p.outlines .south = false →
      p.outlines .east = true ∧ p.outlines .west = true := fun hn hs =>
    ⟨outlines_of_opposite hn hs .east (Or.inl rfl), outlines_of_opposite hn hs .west (Or.inr rfl)⟩
  have hhorizontal : p.outlines .east = false → p.outlines .west = false →
      p.outlines .south = true ∧ p.outlines .north = true := fun he hw =>
    ⟨outlines_of_opposite he hw .south (Or.inl rfl), outlines_of_opposite he hw .north (Or.inr rfl)⟩
  -- One face of each pair of opposite faces stays, or both of the other pair.
  cases hn : p.outlines .north <;> cases hs : p.outlines .south <;> cases he : p.outlines .east <;>
    cases hw : p.outlines .west <;> simp_all [outlineFaces, Side.all]

theorem length_outlineFaces_le (p : Prospect K) : p.outlineFaces.length ≤ 4 :=
  List.length_filter_le _ _

/-- A face that bounds no field of view is blocked, and shares a corner with a face that is seen. -/
theorem outline_or_corner (p : Prospect K) (s : Side) :
    s ∈ p.outlineFaces ∨ p.blocked s = true ∧ ∃ t, p.sees t = true ∧
      ((t = s.after ∧ (p.face s).second = (p.face t).first) ∨
        (t = s.before ∧ (p.face t).second = (p.face s).first)) := by
  cases h : p.outlines s with
  | true =>
      exact Or.inl (List.mem_filter.mpr ⟨s.mem_all, h⟩)
  | false =>
      obtain ⟨hblocked, hbefore | hafter⟩ := blocked_of_not_outlines h
      · exact Or.inr ⟨hblocked, s.before, hbefore, Or.inr ⟨rfl, (p.first_face s).symm⟩⟩
      · exact Or.inr ⟨hblocked, s.after, hafter, Or.inl ⟨rfl, p.second_face s⟩⟩

/-- A face that casts a shadow bounds the field of view as well. -/
theorem shadowFaces_sublist (p : Prospect K) : p.shadowFaces.Sublist p.outlineFaces := by
  refine List.monotone_filter_right _ ?_
  intro s hs
  rw [outlines, hs, Bool.true_or]

theorem vertices_sublist (p : Prospect K) {faces more : List Side} (h : faces.Sublist more) :
    (p.vertices faces).Sublist (p.vertices more) :=
  h.flatMap _

theorem length_vertices (p : Prospect K) (faces : List Side) :
    (p.vertices faces).length = 2 * faces.length := by
  induction faces with
  | nil =>
      rfl
  | cons s rest ih =>
      have hcons : p.vertices (s :: rest) = p.face s :: p.face s :: p.vertices rest := rfl
      rw [hcons, List.length_cons, List.length_cons, ih, List.length_cons, Nat.mul_succ]

end Prospect

/-- The edges of a wall are its faces, each with the two that it shares a corner with. -/
theorem OccluderEntry.edges_eq (e : OccluderEntry K) (eye : Eye K) :
    let p := e.seenFrom eye.position
    occluderEdges (occluderToEye eye e.pose) e.occluder.bounds e.occluder.blocked =
      Side.all.map fun s => ⟨p.face s, p.blocked s, p.sees s.before || p.sees s.after⟩ := by
  intro p
  have hnorth : (p.sees .west || p.sees .east) = (p.sees .east || p.sees .west) := Bool.or_comm ..
  have hwest : (p.sees .south || p.sees .north) = (p.sees .north || p.sees .south) :=
    Bool.or_comm ..
  simp only [Side.all, List.map_cons, List.map_nil, Side.before, Side.after, hnorth, hwest]
  rfl

/-- What a wall adds to the buffers, face by face. -/
theorem OccluderEntry.shape_eq (e : OccluderEntry K) (eye : Eye K) :
    let p := e.seenFrom eye.position
    e.shape eye = ⟨p.corners, p.shadowFaces.map p.face, p.outlineFaces.map p.face⟩ := by
  intro p
  simp only [OccluderEntry.shape, OccluderShape.of, e.edges_eq eye, List.filter_map, List.map_map]
  rfl

namespace OcclusionGeometry

/-- The buffers with one more wall. -/
def add (g : OcclusionGeometry K) (p : Prospect K) : OcclusionGeometry K where
  maxOccluders := g.maxOccluders
  occluderCount := g.occluderCount + 1
  lightVertices := g.lightVertices ++ p.vertices p.shadowFaces
  fovVertices := g.fovVertices ++ p.vertices p.outlineFaces
  maskVertices := g.maskVertices ++ p.corners

/-- The buffers with more walls, one after the other, as long as there is room. -/
def addAll (g : OcclusionGeometry K) : List (Prospect K) → OcclusionGeometry K
  | [] => g
  | p :: rest => if g.occluderCount < g.maxOccluders then (g.add p).addAll rest else g

/-- All walls that there is room for are added at the end of the buffers, and no other one. -/
theorem addAll_eq (g : OcclusionGeometry K) (ps : List (Prospect K)) :
    let added := ps.take (g.maxOccluders - g.occluderCount)
    g.addAll ps =
      { maxOccluders := g.maxOccluders
        occluderCount := g.occluderCount + added.length
        lightVertices := g.lightVertices ++ added.flatMap fun p => p.vertices p.shadowFaces
        fovVertices := g.fovVertices ++ added.flatMap fun p => p.vertices p.outlineFaces
        maskVertices := g.maskVertices ++ added.flatMap (·.corners) } := by
  induction ps generalizing g with
  | nil =>
      simp [addAll]
  | cons p rest ih =>
      by_cases hroom : g.occluderCount < g.maxOccluders
      · obtain ⟨k, hk⟩ : ∃ k, g.maxOccluders - g.occluderCount = k + 1 :=
          ⟨g.maxOccluders - g.occluderCount - 1, by omega⟩
        have hleft : g.maxOccluders - (g.occluderCount + 1) = k := by
          omega
        simp only [addAll, if_pos hroom, ih, add, hk, hleft, List.take_succ_cons, List.length_cons,
          List.flatMap_cons, List.append_assoc]
        simp only [Nat.add_assoc, Nat.add_comm 1]
      · have hnone : g.maxOccluders - g.occluderCount = 0 := by
          omega
        simp [addAll, if_neg hroom, hnone]

theorem doubled_map_face (p : Prospect K) (faces : List Side) :
    doubled (faces.map p.face) = p.vertices faces := by
  rw [doubled, Prospect.vertices, List.flatMap_map]
  rfl

/-- Buffers are built wall by wall, whatever was in them before. -/
theorem build_eq_addAll (g : OcclusionGeometry K) (index : SpatialIndex K) (eye : Eye K)
    (area : Box2 K) :
    g.build index eye area =
      g.clear.addAll ((index.occluders eye.map area).map (·.seenFrom eye.position)) := by
  simp only [addAll_eq, build, ofShapes, clear, new, Nat.sub_zero, ← List.map_take,
    List.flatMap_map, List.length_map, OccluderEntry.shape_eq, doubled_map_face, List.nil_append,
    Nat.zero_add]

/-- Each segment is there twice, a segment that casts a shadow is in the outline as well, and no wall
has more than eight vertices of segments, or other than four of the mask. -/
structure Sized (g : OcclusionGeometry K) : Prop where
  light_length : g.lightVertices.length = g.lightSegmentCount * verticesPerSegment
  fov_length : g.fovVertices.length = g.fovSegmentCount * verticesPerSegment
  light_le_fov : g.lightVertices.length ≤ g.fovVertices.length
  fov_le : g.fovVertices.length ≤ 8 * g.occluderCount
  mask_length : g.maskVertices.length = g.occluderCount * maskVerticesPerOccluder

omit [Scalar K] in
theorem Sized.new (maxOccluders : Nat) : (new maxOccluders : OcclusionGeometry K).Sized := by
  constructor <;> simp [OcclusionGeometry.new, lightSegmentCount, fovSegmentCount]

theorem Sized.add {g : OcclusionGeometry K} (h : g.Sized) (p : Prospect K) : (g.add p).Sized := by
  obtain ⟨hlight, hfov, hle, hroom, hmask⟩ := h
  have houtline := p.length_outlineFaces_le
  have hshadow := p.shadowFaces_sublist.length_le
  simp only [lightSegmentCount, fovSegmentCount, verticesPerSegment] at hlight hfov
  constructor
  case mask_length =>
    simp only [OcclusionGeometry.add, List.length_append, hmask]
    exact (Nat.succ_mul g.occluderCount maskVerticesPerOccluder).symm
  all_goals
    simp only [OcclusionGeometry.add, lightSegmentCount, fovSegmentCount, verticesPerSegment,
      List.length_append, p.length_vertices]
    omega

theorem Sized.addAll {g : OcclusionGeometry K} (h : g.Sized) (ps : List (Prospect K)) :
    (g.addAll ps).Sized := by
  induction ps generalizing g with
  | nil =>
      exact h
  | cons p rest ih =>
      rw [OcclusionGeometry.addAll]
      split
      · exact ih (h.add p)
      · exact h

theorem sized_build (g : OcclusionGeometry K) (index : SpatialIndex K) (eye : Eye K)
    (area : Box2 K) : (g.build index eye area).Sized := by
  rw [build_eq_addAll]
  exact (Sized.new _).addAll _

/-- **What walls add to a frame.**  Buffers that are filled anew do not depend on what was in them.
They are filled by the first walls of an answer, in order, as many as there is room for, and each
buffer is the concatenation of what the walls add: four corners, each open face twice, and each face
of the outline twice. -/
theorem build_contributions (g : OcclusionGeometry K) (index : SpatialIndex K) (eye : Eye K)
    (area : Box2 K) :
    let yielded := (index.occluders eye.map area).map (·.seenFrom eye.position)
    let seen := yielded.take g.maxOccluders
    let built := g.build index eye area
    built = (new g.maxOccluders).addAll yielded ∧
      built.maxOccluders = g.maxOccluders ∧
      built.occluderCount = min g.maxOccluders yielded.length ∧
      built.maskVertices = seen.flatMap (·.corners) ∧
      built.lightVertices = seen.flatMap (fun p => p.vertices p.shadowFaces) ∧
      built.fovVertices = seen.flatMap (fun p => p.vertices p.outlineFaces) ∧
      built.lightVertices.Sublist built.fovVertices ∧
      built.lightVertices.length ≤ 8 * built.occluderCount ∧
      built.fovVertices.length ≤ 8 * built.occluderCount ∧
      ∀ p : Prospect K, 2 ≤ p.outlineFaces.length ∧ p.outlineFaces.length ≤ 4 ∧
        ∀ s, s ∈ p.outlineFaces ∨ p.blocked s = true ∧ ∃ t, p.sees t = true ∧
          ((t = s.after ∧ (p.face s).second = (p.face t).first) ∨
            (t = s.before ∧ (p.face t).second = (p.face s).first)) := by
  intro yielded seen built
  have hbuilt : built = (new g.maxOccluders).addAll yielded := g.build_eq_addAll index eye area
  have hfilled : built = ⟨g.maxOccluders, seen.length,
      seen.flatMap fun p => p.vertices p.shadowFaces,
      seen.flatMap fun p => p.vertices p.outlineFaces, seen.flatMap (·.corners)⟩ := by
    rw [hbuilt, addAll_eq]
    simp only [new, Nat.sub_zero, Nat.zero_add, List.nil_append, seen]
  have hcount : built.occluderCount = seen.length := by
    rw [hfilled]
  have hlight : built.lightVertices = seen.flatMap fun p => p.vertices p.shadowFaces := by
    rw [hfilled]
  have hfov : built.fovVertices = seen.flatMap fun p => p.vertices p.outlineFaces := by
    rw [hfilled]
  have hsublist : built.lightVertices.Sublist built.fovVertices := by
    rw [hlight, hfov]
    exact List.Sublist.flatMap_right _ fun p _ => p.vertices_sublist p.shadowFaces_sublist
  have hlength : built.fovVertices.length ≤ 8 * built.occluderCount :=
    (g.sized_build index eye area).fov_le
  exact ⟨hbuilt, by rw [hfilled], by rw [hcount, List.length_take], by rw [hfilled], hlight, hfov,
    hsublist, Nat.le_trans hsublist.length_le hlength, hlength, fun p =>
      ⟨p.two_le_length_outlineFaces, p.length_outlineFaces_le, p.outline_or_corner⟩⟩

/-- A wall between four others bounds the field of view all around, and casts no shadow. -/
example : let p := (OccluderEntry.mk ⟨1⟩ { Occluder.tile with blocked := Faces.all }
      (Pose.ofPosition ⟨3.0, 2.0⟩)).seenFrom (Vec2.zero : Vec2 Float32)
    p.outlineFaces = Side.all ∧ p.shadowFaces = [] := by
  decide +kernel

end OcclusionGeometry
end Penumbra
