import Penumbra.Geometry.Vec2

/-!
# Affine maps of the plane

An affine map is given by the images of the two unit directions and of the origin.
-/

namespace Penumbra

/-- The map `p ↦ xAxis * p.x + yAxis * p.y + origin`. -/
structure Affine (K : Type) where
  xAxis : Vec2 K
  yAxis : Vec2 K
  origin : Vec2 K
deriving BEq, Repr, Inhabited

namespace Affine

variable {K : Type} [Scalar K]

def linear (m : Affine K) (v : Vec2 K) : Vec2 K :=
  ⟨m.xAxis.x * v.x + m.yAxis.x * v.y, m.xAxis.y * v.x + m.yAxis.y * v.y⟩

def apply (m : Affine K) (p : Vec2 K) : Vec2 K := m.linear p + m.origin

def identity : Affine K := ⟨⟨1.0, 0.0⟩, ⟨0.0, 1.0⟩, Vec2.zero⟩

def shift (offset : Vec2 K) : Affine K := ⟨⟨1.0, 0.0⟩, ⟨0.0, 1.0⟩, offset⟩

def scaling (factors : Vec2 K) : Affine K := ⟨⟨factors.x, 0.0⟩, ⟨0.0, factors.y⟩, Vec2.zero⟩

/-- Turn by an angle around the origin, followed by a shift. -/
def rotationTranslation (angle : K) (offset : Vec2 K) : Affine K :=
  let s := Scalar.sin angle
  let c := Scalar.cos angle
  ⟨⟨c, s⟩, ⟨-s, c⟩, offset⟩

def rotation (angle : K) : Affine K := rotationTranslation angle Vec2.zero

/-- The map `p ↦ m (n p)`. -/
def compose (m n : Affine K) : Affine K :=
  ⟨m.linear n.xAxis, m.linear n.yAxis, m.linear n.origin + m.origin⟩

/-- The inverse map, by the determinant of the linear part. -/
def inverse (m : Affine K) : Affine K :=
  let det := m.xAxis.x * m.yAxis.y - m.xAxis.y * m.yAxis.x
  let positive := 1.0 / det
  let negative := -1.0 / det
  let linearPart : Affine K :=
    ⟨⟨m.yAxis.y * positive, m.xAxis.y * negative⟩,
      ⟨m.yAxis.x * negative, m.xAxis.x * positive⟩, Vec2.zero⟩
  { linearPart with origin := -(linearPart.linear m.origin) }

end Affine
end Penumbra
