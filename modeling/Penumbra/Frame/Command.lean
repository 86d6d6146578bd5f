import Penumbra.Frame.MaskAtlas
import Penumbra.Frame.Occlusion
import Penumbra.Frame.PointLight
import Penumbra.Frame.Target

/-!
# Commands to a device

A frame is drawn by commands that a device carries out in order.

**Contents**

* `deviceWord`: the numbers that commands carry.
* `Command`: the commands with what they carry.
* `Device`: something that carries out commands or refuses them.
-/

namespace Penumbra

/-- What is left of a number in the 32 bits that a device takes. -/
def deviceWord (n : Nat) : Nat := n % 4294967296

inductive DepthTarget where
  | shadowAtlas
  | fovMap
deriving DecidableEq, Repr, Inhabited

/-- How the device is set up around the depth passes. -/
inductive DepthDrawState where
  | prepared
  | finalized
deriving DecidableEq, Repr, Inhabited

/-- What a depth map is cleared to. -/
structure DepthClear (K : Type) where
  color : Color K
  depth : K
deriving BEq, Repr, Inhabited

/-- Segments drawn into the rows of a depth map. -/
structure DepthDraw (K : Type) where
  target : DepthTarget
  vertexCount : Nat
  instanceCount : Nat
  /-- Zero or one: which copy of segments across the seam of the circle. -/
  overlapSide : K
deriving BEq, Repr, Inhabited

structure LightPass (K : Type) where
  ambient : Color K
  targetSize : PixelSize
deriving BEq, Repr, Inhabited

structure MaskDraw (K : Type) where
  occluderCount : Nat
  eyeToClip : Affine K
deriving BEq, Repr, Inhabited

/-- A pass over the whole picture that looks up what is in sight. -/
structure FovBlit (K : Type) where
  clipToDiff : Affine K
  occludeColor : Color K
deriving BEq, Repr, Inhabited

/-- The only part of the picture that a draw may change, from the upper left corner. -/
structure ScissorRect where
  x : Nat
  y : Nat
  width : Nat
  height : Nat
deriving DecidableEq, Repr, Inhabited

inductive ShadowMode where
  /-- With penumbra, collected in the opacity; it may have to be capped by a draw of its own. -/
  | soft (clampAlpha : Bool)
  | hard (stencilRef : Nat)
deriving DecidableEq, Repr, Inhabited

/-- The four corners of a light's quad, in order around it. -/
structure LightQuad (K : Type) where
  first : LightVertex K
  second : LightVertex K
  third : LightVertex K
  fourth : LightVertex K
deriving BEq, Repr, Inhabited

def LightQuad.vertices {K : Type} (q : LightQuad K) : List (LightVertex K) :=
  [q.first, q.second, q.third, q.fourth]

structure ShadowCasterDraw (K : Type) where
  quad : LightQuad K
  /-- The part of the light map that the quad covers. -/
  scissor : ScissorRect
  mode : ShadowMode
deriving BEq, Repr, Inhabited

/-- A texture that is blurred from or to. -/
inductive BlurTarget where
  | light
  | lightBlur
  | wallBleed1
  | wallBleed2
deriving DecidableEq, Repr, Inhabited

structure BlurPass (K : Type) where
  source : BlurTarget
  destination : BlurTarget
  direction : Vec2 K
  radius : K
deriving BEq, Repr, Inhabited

inductive Command (K : Type) where
  | resizeTargets (sizes : TargetSizes)
  | resizeBuffers (capacities : BufferCapacities)
  | uploadMaskAtlas (image : Image)
  | beginFrame
  /-- Take over the walls and the points that depth maps are seen from. -/
  | uploadOcclusion (geometry : OcclusionGeometry K) (lightInstances : List (DepthInstance K))
      (fovInstances : List (DepthInstance K))
  | setDepthState (state : DepthDrawState)
  | clearDepthTarget (target : DepthTarget) (clear : DepthClear K)
  | drawOcclusionDepth (draw : DepthDraw K)
  | beginLightPass (pass : LightPass K)
  | drawLightingFov (blit : FovBlit K)
  | drawOccluderMask (mask : MaskDraw K)
  | drawLightBatch (vertices : List (LightVertex K)) (indices : List UInt16)
  | drawShadowCaster (draw : ShadowCasterDraw K)
  | endLightPass
  | blur (pass : BlurPass K)
  | mergeWallBleed
  | applyFov (blit : FovBlit K)
  | endFrame
deriving Inhabited

/-- Something that carries out commands; one that it refuses may still change it. -/
class Device (D K : Type) where
  /-- Carries out a command, or refuses it with a message. -/
  perform : D → Command K → Except String Unit × D

end Penumbra
