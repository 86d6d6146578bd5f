import Penumbra.Camera
import Penumbra.Config.Basic

/-!
# Sizes of what a frame needs

**Contents**

* `Capabilities`: what a device can do.
* `TargetSizes.new`: the textures that are drawn into.
* `BufferCapacities.ofLimits`: the room for lights and occluders.
-/

namespace Penumbra

structure Capabilities where
  maxTextureSize : Nat
  floatTargets : Bool
deriving DecidableEq, Repr, Inhabited

/-- Angular steps of a shadow map, the width of the shadow atlas. -/
def shadowMapSize : Nat := 512

/-- Angular steps of the map of what is in sight; it has two rows. -/
def fovMapSize : Nat := 2048

/-- Sizes of the textures that a frame draws into. -/
structure TargetSizes where
  framebuffer : PixelSize
  lightMap : PixelSize
  wallBleed : PixelSize
  /-- The shadow atlas, a row for each light with shadows. -/
  shadowAtlas : PixelSize
  fovMap : PixelSize
deriving DecidableEq, Repr, Inhabited

structure BufferCapacities where
  maxOccluders : Nat
  maxLights : Nat
  maxShadowLights : Nat
deriving DecidableEq, Repr, Inhabited

variable {K : Type} [Scalar K]

/-- A size multiplied and rounded up, at least one pixel. -/
def PixelSize.scaled (s : PixelSize) (factor : K) : PixelSize :=
  ⟨max (Scalar.ceilPixels (Scalar.ofNat s.width * factor)) 1,
    max (Scalar.ceilPixels (Scalar.ofNat s.height * factor)) 1⟩

def TargetSizes.new (v : Viewport K) (l : Limits K) : TargetSizes where
  framebuffer := v.size
  lightMap := v.size.scaled l.resolutionScale
  wallBleed := v.size.scaled (l.resolutionScale / 2.0)
  shadowAtlas := ⟨shadowMapSize, l.shadowRows⟩
  fovMap := ⟨fovMapSize, 2⟩

def BufferCapacities.ofLimits (l : Limits K) : BufferCapacities :=
  ⟨l.maxOccluders, l.maxLights, l.maxShadowLights⟩

end Penumbra
