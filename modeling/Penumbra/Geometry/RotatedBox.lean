import Penumbra.Geometry.Box2

/-!
# Rotated boxes

A box turned around a point, the shape of the world area that a turned camera sees.
-/

namespace Penumbra

/-- A box turned by `rotation` radians around `origin`. -/
structure RotatedBox (K : Type) where
  bounds : Box2 K
  rotation : K
  origin : Vec2 K
deriving BEq, Repr, Inhabited

namespace RotatedBox

variable {K : Type} [Scalar K]

def ofBox (bounds : Box2 K) : RotatedBox K := ⟨bounds, 0.0, Vec2.zero⟩

/-- Where a point of the box comes to lie. -/
def turn (r : RotatedBox K) (p : Vec2 K) : Vec2 K := (p - r.origin).rotated r.rotation + r.origin

/-- The turned corners, counter-clockwise from the lower left one. -/
def corners (r : RotatedBox K) : List (Vec2 K) := r.bounds.corners.map r.turn

/-- The smallest box along the axes around the turned corners. -/
def boundingBox (r : RotatedBox K) : Box2 K := Box2.boundsOf r.corners

/-- The smallest box along the axes around the images of the turned corners. -/
def transformed (r : RotatedBox K) (m : Affine K) : Box2 K :=
  Box2.boundsOf (r.corners.map m.apply)

end RotatedBox
end Penumbra
