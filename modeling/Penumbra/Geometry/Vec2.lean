import Penumbra.Numeric.Scalar

/-!
# Vectors of the plane

Points and directions share one type.  The order of the operations inside each definition is part
of its meaning: machine scalars round every step.
-/

namespace Penumbra

/-- A point or a direction of the plane. -/
structure Vec2 (K : Type) where
  x : K
  y : K
deriving BEq, Repr, Inhabited

namespace Vec2

variable {K : Type} [Scalar K]

def splat (a : K) : Vec2 K := ⟨a, a⟩

def zero : Vec2 K := ⟨0.0, 0.0⟩

def one : Vec2 K := ⟨1.0, 1.0⟩

instance : Add (Vec2 K) := ⟨fun v w => ⟨v.x + w.x, v.y + w.y⟩⟩
instance : Sub (Vec2 K) := ⟨fun v w => ⟨v.x - w.x, v.y - w.y⟩⟩
instance : Mul (Vec2 K) := ⟨fun v w => ⟨v.x * w.x, v.y * w.y⟩⟩
instance : Div (Vec2 K) := ⟨fun v w => ⟨v.x / w.x, v.y / w.y⟩⟩
instance : Neg (Vec2 K) := ⟨fun v => ⟨-v.x, -v.y⟩⟩

/-- The vector with both coordinates multiplied by a scalar. -/
def scale (v : Vec2 K) (a : K) : Vec2 K := ⟨v.x * a, v.y * a⟩

/-- The vector with both coordinates divided by a scalar. -/
def divide (v : Vec2 K) (a : K) : Vec2 K := ⟨v.x / a, v.y / a⟩

def lengthSquared (v : Vec2 K) : K := v.x * v.x + v.y * v.y

def length (v : Vec2 K) : K := Scalar.sqrt v.lengthSquared

/-- The vector of length one in the same direction; a vector without length gives the origin. -/
def normalized (v : Vec2 K) : Vec2 K :=
  if v.length == 0.0 then zero else v.divide v.length

def dot (v w : Vec2 K) : K := v.x * w.x + v.y * w.y

/-- Cross product, positive when `w` lies counter-clockwise of `v`. -/
def cross (v w : Vec2 K) : K := v.x * w.y - v.y * w.x

def distanceSquared (v w : Vec2 K) : K := (v - w).lengthSquared

/-- The point the fraction `t` of the way from `v` to `w`. -/
def lerp (v w : Vec2 K) (t : K) : Vec2 K :=
  ⟨v.x + (w.x - v.x) * t, v.y + (w.y - v.y) * t⟩

/-- The vector turned counter-clockwise by an angle in radians. -/
def rotated (v : Vec2 K) (angle : K) : Vec2 K :=
  let s := Scalar.sin angle
  let c := Scalar.cos angle
  ⟨v.x * c - v.y * s, v.x * s + v.y * c⟩

def minimum (v w : Vec2 K) : Vec2 K := ⟨Scalar.minimum v.x w.x, Scalar.minimum v.y w.y⟩

def maximum (v w : Vec2 K) : Vec2 K := ⟨Scalar.maximum v.x w.x, Scalar.maximum v.y w.y⟩

end Vec2
end Penumbra
