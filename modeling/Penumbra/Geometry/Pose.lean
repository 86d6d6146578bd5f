import Penumbra.Geometry.Affine

/-!
# Poses

Where an entity or a tree of entities stands and how it is turned.
-/

namespace Penumbra

/-- A position and a rotation, without scaling. -/
structure Pose (K : Type) where
  position : Vec2 K
  rotation : K
deriving BEq, Repr, Inhabited

namespace Pose

variable {K : Type} [Scalar K]

def identity : Pose K := ⟨Vec2.zero, 0.0⟩

def ofPosition (position : Vec2 K) : Pose K := ⟨position, 0.0⟩

/-- The pose as an affine map from local to outer coordinates. -/
def toAffine (p : Pose K) : Affine K := Affine.rotationTranslation p.rotation p.position

def inverseAffine (p : Pose K) : Affine K := p.toAffine.inverse

/-- The pose of something that stands at `inner` relative to `outer`. -/
def andThen (outer inner : Pose K) : Pose K :=
  ⟨outer.position + inner.position.rotated outer.rotation, outer.rotation + inner.rotation⟩

def apply (p : Pose K) (point : Vec2 K) : Vec2 K := p.position + point.rotated p.rotation

end Pose
end Penumbra
