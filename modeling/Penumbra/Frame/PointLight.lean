import Penumbra.Color
import Penumbra.Geometry.Box2

/-!
# Lights of a frame

**Contents**

* `PointLight`: a light as one frame draws it, relative to the eye.
* `LightVertex`: a corner of the quad that a light is drawn with.
* `DepthInstance`, `rowToV`: a row of a depth map.
-/

namespace Penumbra

/-- A light relative to the eye, for one frame. -/
structure PointLight (K : Type) where
  color : Color K
  position : Vec2 K
  range : K
  power : K
  softness : K
  angle : K
  /-- Part of the mask atlas that is the light's mask. -/
  maskUv : Box2 K
  distanceSquared : K
  castsShadows : Bool
  /-- Row of the shadow atlas, of a light with shadows. -/
  shadowRow : Nat
deriving BEq, Repr, Inhabited

/-- The bytes that a light takes: sixteen numbers of 32 bits, and as much for its flag. -/
def PointLight.bytes : Nat := 68

/-- A corner of a light's quad; every corner carries the whole light. -/
structure LightVertex (K : Type) where
  /-- Pixel of the light map, from the upper left corner. -/
  position : Vec2 K
  world : Vec2 K
  lightPosition : Vec2 K
  color : Color K
  range : K
  power : K
  softness : K
  angle : K
  mask : Box2 K
  shadowRowV : K
deriving BEq, Repr, Inhabited

/-- A row of a depth map, seen from one point. -/
structure DepthInstance (K : Type) where
  origin : Vec2 K
  rowV : K
  /-- One leaves out back faces, minus one leaves out front faces. -/
  cullOrientation : K
deriving BEq, Repr, Inhabited

variable {K : Type} [Scalar K]

def LightVertex.ofLight (light : PointLight K) (position world : Vec2 K) (shadowRowV : K) :
    LightVertex K where
  position := position
  world := world
  lightPosition := light.position
  color := light.color
  range := light.range
  power := light.power
  softness := light.softness
  angle := light.angle
  mask := light.maskUv
  shadowRowV := shadowRowV

/-- All values of a corner in the order of the device's vertex layout, the last one unused. -/
def LightVertex.values (v : LightVertex K) : List K :=
  [v.position.x, v.position.y, v.world.x, v.world.y, v.lightPosition.x, v.lightPosition.y] ++
    v.color.channels ++ [v.range, v.power, v.softness, v.angle] ++
    [v.mask.left, v.mask.bottom, v.mask.right, v.mask.top] ++ [v.shadowRowV, 0.0]

/-- Texture coordinate of the middle of a row in a texture of some height. -/
def rowToV (row height : Nat) : K :=
  (Scalar.ofNat row + 0.5) / Scalar.ofNat (max height 1)

end Penumbra
