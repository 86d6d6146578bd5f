import Penumbra.Camera
import Penumbra.Memory

/-!
# Geometry of the walls in a frame

Walls become segments for the depth maps and quads for the stencil, all relative to the eye.  Each
segment is written twice, once for each end of a line.

**Contents**

* `Segment`, `OcclusionGeometry`: the buffers of a frame.
* `isFrontFacing`: an edge of a wall faces the eye.
* `OcclusionGeometry.build`: the buffers for the first walls that an index answers.
* `quadIndices`: the triangles of the quads.
-/

namespace Penumbra

/-- An edge of a wall, relative to the eye. -/
structure Segment (K : Type) where
  first : Vec2 K
  second : Vec2 K
deriving BEq, Repr, Inhabited

/-- The walls of a frame as buffers, with room for a number of walls. -/
structure OcclusionGeometry (K : Type) where
  maxOccluders : Nat
  occluderCount : Nat
  lightVertices : List (Segment K)
  fovVertices : List (Segment K)
  maskVertices : List (Vec2 K)
deriving BEq, Repr, Inhabited

/-- The bytes that a segment takes: four numbers of 32 bits. -/
def Segment.bytes : Nat := 16

def verticesPerSegment : Nat := 2

def segmentsPerOccluder : Nat := 4

def maskVerticesPerOccluder : Nat := 4

variable {K : Type} [Scalar K]

/--
Whether `b` lies counter-clockwise of `a`, seen from the eye.  Corners of walls are listed clockwise,
so that such an edge faces the eye.
-/
def isFrontFacing (a b : Vec2 K) : Bool := (0.0 : K) < a.cross b

/-- What one wall adds to the buffers. -/
structure OccluderShape (K : Type) where
  corners : List (Vec2 K)
  lightSegments : List (Segment K)
  fovSegments : List (Segment K)
deriving BEq, Repr, Inhabited

/-- An edge of a wall with what decides about its segments. -/
structure OccluderEdge (K : Type) where
  segment : Segment K
  isBlocked : Bool
  /-- Whether one of the edges at a right angle is open and faces the eye. -/
  neighbourVisible : Bool
deriving BEq, Repr, Inhabited

/-- Corners, clockwise from the upper left one; the last one completes the parallelogram. -/
def occluderCorners (toEye : Affine K) (bounds : Box2 K) : Vec2 K × Vec2 K × Vec2 K × Vec2 K :=
  let tl := toEye.apply bounds.topLeft
  let tr := toEye.apply bounds.topRight
  let br := toEye.apply bounds.bottomRight
  (tl, tr, br, tl + br - tr)

/-- The edges of a wall in the order north, east, south, west. -/
def occluderEdges (toEye : Affine K) (bounds : Box2 K) (blocked : Faces) : List (OccluderEdge K) :=
  let (tl, tr, br, bl) := occluderCorners toEye bounds
  let visible := fun (side : Side) (a b : Vec2 K) => !blocked.contains side && isFrontFacing a b
  let north := visible .north tl tr
  let east := visible .east tr br
  let south := visible .south br bl
  let west := visible .west bl tl
  [⟨⟨tl, tr⟩, blocked.contains .north, east || west⟩,
    ⟨⟨tr, br⟩, blocked.contains .east, north || south⟩,
    ⟨⟨br, bl⟩, blocked.contains .south, east || west⟩,
    ⟨⟨bl, tl⟩, blocked.contains .west, north || south⟩]

/--
What a wall adds: its open faces cast shadows.  A blocked face bounds the field of view as well, when
no face at a right angle is visible; otherwise inner corners would leak.
-/
def OccluderShape.of (toEye : Affine K) (bounds : Box2 K) (blocked : Faces) : OccluderShape K :=
  let (tl, tr, br, bl) := occluderCorners toEye bounds
  let edges := occluderEdges toEye bounds blocked
  { corners := [tl, tr, br, bl]
    lightSegments := (edges.filter fun e => !e.isBlocked).map (·.segment)
    fovSegments := (edges.filter fun e => !e.isBlocked || !e.neighbourVisible).map (·.segment) }

/-- From a wall's own coordinates to the world around the eye. -/
def occluderToEye (eye : Eye K) (pose : Pose K) : Affine K :=
  Affine.rotationTranslation pose.rotation (pose.position - eye.position)

def OccluderEntry.shape (e : OccluderEntry K) (eye : Eye K) : OccluderShape K :=
  OccluderShape.of (occluderToEye eye e.pose) e.occluder.bounds e.occluder.blocked

namespace OcclusionGeometry

def doubled (segments : List (Segment K)) : List (Segment K) :=
  segments.flatMap fun s => List.replicate verticesPerSegment s

/-- Empty buffers with room for a number of walls. -/
def new (maxOccluders : Nat) : OcclusionGeometry K := ⟨maxOccluders, 0, [], [], []⟩

/-- Empty buffers with other room; those of the segments are the largest and have to fit. -/
def resize (_ : OcclusionGeometry K) (maxOccluders : Nat) : Except Fault (OcclusionGeometry K) := do
  Memory.reserve (maxOccluders * segmentsPerOccluder * verticesPerSegment) Segment.bytes
  return new maxOccluders

def clear (g : OcclusionGeometry K) : OcclusionGeometry K := new g.maxOccluders

def lightSegmentCount (g : OcclusionGeometry K) : Nat := g.lightVertices.length / verticesPerSegment

/-- Number of segments that bound the field of view. -/
def fovSegmentCount (g : OcclusionGeometry K) : Nat := g.fovVertices.length / verticesPerSegment

def ofShapes (maxOccluders : Nat) (shapes : List (OccluderShape K)) : OcclusionGeometry K where
  maxOccluders := maxOccluders
  occluderCount := shapes.length
  lightVertices := shapes.flatMap fun s => doubled s.lightSegments
  fovVertices := shapes.flatMap fun s => doubled s.fovSegments
  maskVertices := shapes.flatMap fun s => s.corners

/-- The buffers keep their promises: four corners for each wall, no shadow without an outline. -/
def check (g : OcclusionGeometry K) : Except Fault Unit :=
  if g.maskVertices.length != g.occluderCount * maskVerticesPerOccluder then .error .maskCount
  else if g.fovVertices.length < g.lightVertices.length then .error .segmentCount
  else .ok ()

/-- The buffers for the first walls that overlap an area; what was in them before is gone. -/
def build (g : OcclusionGeometry K) (index : SpatialIndex K) (eye : Eye K) (bounds : Box2 K) :
    OcclusionGeometry K :=
  ofShapes g.maxOccluders
    (((index.occluders eye.map bounds).take g.maxOccluders).map fun e => e.shape eye)

end OcclusionGeometry

/-- The corners of the two triangles of each of a number of quads, numbered in 16 bits. -/
def quadIndices (count : Nat) : List UInt16 :=
  (List.range count).flatMap fun quad =>
    let base := UInt16.ofNat (quad * maskVerticesPerOccluder)
    [base, base + 1, base + 2, base, base + 2, base + 3]

end Penumbra
