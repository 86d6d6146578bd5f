import Penumbra.Geometry.RotatedBox
import Penumbra.World.Index

/-!
# Eyes and viewports

An eye looks at a place of a map; a viewport is the picture it is drawn into.  What a device gets is
always relative to the eye, so that precision does not depend on where on the map the eye is.

**Contents**

* `Eye`, `PixelSize`, `Viewport`.
* `Viewport.localToWorld`, `Viewport.worldBounds`: from the picture to the world.
* `Viewport.eyeToClip`, `Viewport.eyeToTarget`: from the world around the eye to the picture.
* `Viewport.clipToDiff`: from the picture back to the world around a point.
-/

namespace Penumbra

structure Eye (K : Type) where
  position : Vec2 K
  map : MapId
  rotation : K
  zoom : Vec2 K
  drawFov : Bool
  drawLight : Bool
deriving BEq, Repr, Inhabited

structure PixelSize where
  width : Nat
  height : Nat
deriving DecidableEq, Repr, Inhabited

/-- A picture that an eye is drawn into. -/
structure Viewport (K : Type) where
  size : PixelSize
  /-- Factor from pixels on the screen to pixels of the picture. -/
  renderScale : Vec2 K
deriving BEq, Repr, Inhabited

def pixelsPerMeter {K : Type} [Scalar K] : K := 32.0

def PixelSize.toVec2 {K : Type} [Scalar K] (s : PixelSize) : Vec2 K :=
  ⟨Scalar.ofNat s.width, Scalar.ofNat s.height⟩

namespace Eye

variable {K : Type} [Scalar K]

def scale (e : Eye K) : Vec2 K := ⟨1.0 / e.zoom.x, 1.0 / e.zoom.y⟩

end Eye

namespace Viewport

variable {K : Type} [Scalar K]

/-- A picture of at least one pixel, without scaling. -/
def new (width height : Nat) : Viewport K := ⟨⟨max width 1, max height 1⟩, Vec2.one⟩

def metersPerPixel (v : Viewport K) (e : Eye K) : Vec2 K :=
  e.zoom / v.renderScale.scale pixelsPerMeter

/-- The world point under a pixel; pixels are counted from the upper left corner downwards. -/
def localToWorld (v : Viewport K) (e : Eye K) (pixel : Vec2 K) : Vec2 K :=
  let half := (v.size.toVec2 (K := K)).scale 0.5
  let centred : Vec2 K := ⟨pixel.x - half.x, half.y - pixel.y⟩
  e.position + (centred * v.metersPerPixel e).rotated e.rotation

def worldBounds (v : Viewport K) (e : Eye K) : RotatedBox K :=
  let extent := v.size.toVec2 * v.metersPerPixel e
  ⟨Box2.around e.position extent, e.rotation, e.position⟩

/-- Clip units to a world unit, along each axis of the picture. -/
def clipScale (v : Viewport K) (e : Eye K) : Vec2 K :=
  (e.scale * v.renderScale).scale (pixelsPerMeter * 2.0) / v.size.toVec2

/-- From the world around the eye to clip space, without the position of the eye. -/
def eyeToClip (v : Viewport K) (e : Eye K) : Affine K :=
  (Affine.scaling (v.clipScale e)).compose (Affine.rotation (-e.rotation))

/-- From the world around the eye to the pixels of a target that shows the same picture. -/
def eyeToTarget (v : Viewport K) (e : Eye K) (target : PixelSize) : Affine K :=
  let half := (target.toVec2 (K := K)).scale 0.5
  ((Affine.shift half).compose (Affine.scaling ⟨half.x, -half.y⟩)).compose (v.eyeToClip e)

def cameraSize (v : Viewport K) (e : Eye K) : K :=
  e.zoom.y * Scalar.ofNat v.size.height / v.renderScale.y / pixelsPerMeter

/--
From clip space to the world around a centre.  It is found from three points of the picture and not
by an inverse, so that it stays precise far from the origin of the world.
-/
def clipToDiff (v : Viewport K) (e : Eye K) (centre : Vec2 K) : Affine K :=
  let half := (v.size.toVec2 (K := K)).scale 0.5
  let zero := v.localToWorld e half
  let xAxis := v.localToWorld e (half + ⟨half.x, 0.0⟩) - zero
  let yAxis := v.localToWorld e (half - ⟨0.0, half.y⟩) - zero
  ⟨xAxis, yAxis, zero - centre⟩

end Viewport
end Penumbra
