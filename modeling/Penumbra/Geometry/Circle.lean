import Penumbra.Geometry.Box2

/-!
# Circles
-/

namespace Penumbra

structure Circle (K : Type) where
  center : Vec2 K
  radius : K
deriving BEq, Repr, Inhabited

namespace Circle

variable {K : Type} [Scalar K]

def boundingBox (c : Circle K) : Box2 K := Box2.around c.center (Vec2.splat (c.radius * 2.0))

/--
Whether the circle and the box share a point, the rim included: the point of the box nearest to the
centre is at most the radius away.  `none` when the sides of the box are not in order, because then
there is no nearest point.
-/
def intersectsBox? (c : Circle K) (b : Box2 K) : Option Bool := do
  let x ← Scalar.clamp? b.left b.right c.center.x
  let y ← Scalar.clamp? b.bottom b.top c.center.y
  return (Vec2.mk x y).distanceSquared c.center ≤ c.radius * c.radius

end Circle
end Penumbra
