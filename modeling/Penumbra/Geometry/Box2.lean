import Penumbra.Geometry.Affine

/-!
# Boxes with sides along the axes

A box is given by its four sides.  Nothing forces `left ≤ right`: a box may be inverted, or have
sides that are not numbers, and every operation says what it does then.
-/

namespace Penumbra

/-- A box with sides along the axes; `y` points upwards. -/
structure Box2 (K : Type) where
  left : K
  bottom : K
  right : K
  top : K
deriving BEq, Repr, Inhabited

namespace Box2

variable {K : Type} [Scalar K]

def zero : Box2 K := ⟨0.0, 0.0, 0.0, 0.0⟩

def ofCorners (bottomLeft topRight : Vec2 K) : Box2 K :=
  ⟨bottomLeft.x, bottomLeft.y, topRight.x, topRight.y⟩

/-- The box of a full size around its centre. -/
def around (center size : Vec2 K) : Box2 K :=
  let half := size.scale 0.5
  ofCorners (center - half) (center + half)

def ofPoint (p : Vec2 K) : Box2 K := ofCorners p p

def width (b : Box2 K) : K := b.right - b.left

def height (b : Box2 K) : K := b.top - b.bottom

def size (b : Box2 K) : Vec2 K := ⟨b.width, b.height⟩

def center (b : Box2 K) : Vec2 K := ⟨(b.left + b.right) * 0.5, (b.bottom + b.top) * 0.5⟩

def bottomLeft (b : Box2 K) : Vec2 K := ⟨b.left, b.bottom⟩

def bottomRight (b : Box2 K) : Vec2 K := ⟨b.right, b.bottom⟩

def topLeft (b : Box2 K) : Vec2 K := ⟨b.left, b.top⟩

def topRight (b : Box2 K) : Vec2 K := ⟨b.right, b.top⟩

def corners (b : Box2 K) : List (Vec2 K) := [b.bottomLeft, b.bottomRight, b.topRight, b.topLeft]

/-- Whether the box has no area or is inverted. -/
def isEmpty (b : Box2 K) : Bool := b.right ≤ b.left || b.top ≤ b.bottom

/-- Whether a point lies in the box or on its sides. -/
def contains (b : Box2 K) (p : Vec2 K) : Bool :=
  b.left ≤ p.x && p.x ≤ b.right && b.bottom ≤ p.y && p.y ≤ b.top

/-- Whether two boxes overlap; sharing a side is enough. -/
def intersects (a b : Box2 K) : Bool :=
  a.left ≤ b.right && b.left ≤ a.right && a.bottom ≤ b.top && b.bottom ≤ a.top

/-- The common part of two boxes; of boxes that do not overlap, a box without area. -/
def intersect (a b : Box2 K) : Box2 K :=
  let left := Scalar.maximum a.left b.left
  let bottom := Scalar.maximum a.bottom b.bottom
  ⟨left, bottom,
    Scalar.maximum (Scalar.minimum a.right b.right) left,
    Scalar.maximum (Scalar.minimum a.top b.top) bottom⟩

def union (a b : Box2 K) : Box2 K :=
  ⟨Scalar.minimum a.left b.left, Scalar.minimum a.bottom b.bottom,
    Scalar.maximum a.right b.right, Scalar.maximum a.top b.top⟩

/-- The smallest box around a box and a point. -/
def extend (b : Box2 K) (p : Vec2 K) : Box2 K :=
  ⟨Scalar.minimum b.left p.x, Scalar.minimum b.bottom p.y,
    Scalar.maximum b.right p.x, Scalar.maximum b.top p.y⟩

def enlarged (b : Box2 K) (amount : K) : Box2 K :=
  ⟨b.left - amount, b.bottom - amount, b.right + amount, b.top + amount⟩

def translated (b : Box2 K) (offset : Vec2 K) : Box2 K :=
  ⟨b.left + offset.x, b.bottom + offset.y, b.right + offset.x, b.top + offset.y⟩

/-- The smallest box around some points; of no points, the box at the origin. -/
def boundsOf : List (Vec2 K) → Box2 K
  | [] => zero
  | p :: ps => ps.foldl extend (ofPoint p)

/-- The smallest box around the images of the corners. -/
def transformed (b : Box2 K) (m : Affine K) : Box2 K := boundsOf (b.corners.map m.apply)

end Box2
end Penumbra
