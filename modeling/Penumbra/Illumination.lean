import Penumbra.World.Index

/-!
# The light that falls on a point

Some rules of a game ask how bright a place is, without a frame being drawn.  Only lights with
shadows count, and a single wall in between keeps a light out.

**Contents**

* `attenuation`: the part of a light that arrives at a distance.
* `segmentsTouch`, `isOccluded`: whether a wall lies between two points.
* `lightColorAt`, `lightLevelAt`: what arrives at a point.
* `LightSensor`: remembers a level and notes when it changes.
-/

namespace Penumbra

variable {K : Type} [Scalar K]

/-- How far around a point lights are looked for. -/
def searchRange : K := 15.0

def lightHeight : K := 1.0

/-- The part of a light that arrives at a squared distance; a light without range gives none. -/
def attenuation (distanceSquared radius falloff curveFactor : K) : K :=
  if radius ≤ 0.0 then 0.0
  else
    let s := Scalar.clamp 0.0 1.0
      (Scalar.sqrt (distanceSquared + lightHeight * lightHeight) / radius)
    let s2 := s * s
    let curve := s + (s2 - s) * Scalar.clamp 0.0 1.0 curveFactor
    let inverse := 1.0 - s2
    Scalar.clamp 0.0 1.0 (inverse * inverse / (1.0 + falloff * curve))

/-- Whether two scalars lie strictly on opposite sides of zero. -/
def oppositeSigns (a b : K) : Bool :=
  (((0.0 : K) < a) && (b < (0.0 : K))) || ((a < (0.0 : K)) && ((0.0 : K) < b))

/-- Whether `r` lies in the smallest box around `p` and `q`. -/
def inSpan (p q r : Vec2 K) : Bool :=
  Scalar.minimum p.x q.x ≤ r.x && r.x ≤ Scalar.maximum p.x q.x &&
    Scalar.minimum p.y q.y ≤ r.y && r.y ≤ Scalar.maximum p.y q.y

/-- Whether the segments from `a` to `b` and from `c` to `d` share a point, their ends included. -/
def segmentsTouch (a b c d : Vec2 K) : Bool :=
  let ab := b - a
  let cd := d - c
  let d1 := ab.cross (c - a)
  let d2 := ab.cross (d - a)
  let d3 := cd.cross (a - c)
  let d4 := cd.cross (b - c)
  if oppositeSigns d1 d2 && oppositeSigns d3 d4 then true
  else
    (d1 == 0.0 && inSpan a b c) || (d2 == 0.0 && inSpan a b d) ||
      (d3 == 0.0 && inSpan c d a) || (d4 == 0.0 && inSpan c d b)

/-- The corners of a wall in the world, counter-clockwise from the lower left one. -/
def OccluderEntry.corners (e : OccluderEntry K) : List (Vec2 K) :=
  e.occluder.bounds.corners.map e.pose.apply

/-- The sides of a polygon from each corner to the next, the last one back to the first. -/
def polygonEdges (corners : List (Vec2 K)) : List (Vec2 K × Vec2 K) :=
  corners.zip (corners.drop 1 ++ corners.take 1)

/-- Whether a wall has an edge that the segment shares a point with. -/
def OccluderEntry.blocks (e : OccluderEntry K) (start finish : Vec2 K) : Bool :=
  (polygonEdges e.corners).any fun (c, d) => segmentsTouch start finish c d

/-- Whether a standing wall of the map lies across the segment; touching it is enough. -/
def isOccluded (index : SpatialIndex K) (map : MapId) (start finish : Vec2 K) : Bool :=
  (index.occluders map (Box2.ofCorners (start.minimum finish) (start.maximum finish))).any
    (·.blocks start finish)

/-- Whether a light of the map reaches a point: it casts shadows, is in range and not walled off. -/
def reaches (index : SpatialIndex K) (map : MapId) (point : Vec2 K) (e : LightEntry K) : Bool :=
  e.light.castShadows &&
    !(e.light.radius * e.light.radius < e.position.distanceSquared point) &&
    !isOccluded index map e.position point

/-- What a light gives to a point that it reaches. -/
def contribution (point : Vec2 K) (e : LightEntry K) : Color K :=
  e.light.color.scaled
    (e.light.energy * attenuation (e.position.distanceSquared point) e.light.radius
      e.light.falloff e.light.curveFactor)

/-- The lights that a point gets light from, in the order of the index. -/
def lightsReaching (index : SpatialIndex K) (map : MapId) (point : Vec2 K) : List (LightEntry K) :=
  (index.lights map (RotatedBox.ofBox ((Box2.ofPoint point).enlarged searchRange))).filter
    (reaches index map point)

/-- The sum of all light that arrives at a point. -/
def lightColorAt (index : SpatialIndex K) (map : MapId) (point : Vec2 K) : Color K :=
  (lightsReaching index map point).foldl (fun total e => total + contribution point e)
    Color.transparent

/-- Brightness at a point: the strongest channel of the light that arrives. -/
def lightLevelAt (index : SpatialIndex K) (map : MapId) (point : Vec2 K) : K :=
  (lightColorAt index map point).maxChannel

/-- The brightness that an entity last saw. -/
structure LightSensor (K : Type) where
  level : K
  changed : Bool
deriving BEq, Repr, Inhabited

namespace LightSensor

def dark : LightSensor K := ⟨0.0, false⟩

/-- Stores a level; tells whether it differs from the one before. -/
def set (s : LightSensor K) (value : K) : LightSensor K × Bool :=
  if s.level == value then (s, false) else (⟨value, true⟩, true)

/-- Stores the level at a point; tells whether it differs from the one before. -/
def update (s : LightSensor K) (index : SpatialIndex K) (map : MapId) (point : Vec2 K) :
    LightSensor K × Bool :=
  s.set (lightLevelAt index map point)

/-- Forgets that the level changed; tells whether it had. -/
def take (s : LightSensor K) : LightSensor K × Bool := ({ s with changed := false }, s.changed)

end LightSensor
end Penumbra
