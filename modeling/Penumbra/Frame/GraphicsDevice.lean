import Penumbra.Frame.Command

/-!
# The rules of a graphics device

A graphics device refuses commands that come out of order or that do not fit its buffers.  Drawing
itself never fails; what is drawn is not told here, apart from the pixels that a draw is kept to.

A frame keeps its uniforms, and the corners and triangles of its lights, in buffers that are filled
from the start.  A command may be refused after it has taken room there.

**Contents**

* `Refusal` with its texts in `Refusal.message`.
* `GraphicsDevice`: textures, buffers and the frame that has begun.
* `GraphicsDevice.perform?`: the rules in the order in which they are checked.
* `ScissorRect.clamped?`: the pixels of a picture that a draw is kept to.
-/

namespace Penumbra

/-- Why a device refuses a command. -/
inductive Refusal where
  | noFrame
  | frameEnded
  | noTargets
  | noLightPass
  | noAtlas
  | tooManyPasses
  | tooManyQuads (room : Nat)
  | oddIndices (count : Nat)
  /-- There are more walls than the buffers have room for. -/
  | tooManyOccluders (count room : Nat)
  /-- There are more lights with shadows than the buffers have room for. -/
  | tooManyCasters (count room : Nat)
  | targetTooLarge (name : String) (size : PixelSize) (limit : Nat)
deriving DecidableEq, Repr, Inhabited

def uniformSlots : Nat := 64

def Refusal.message : Refusal → String
  | noFrame => "No frame in progress"
  | frameEnded => "Frame already ended"
  | noTargets => "Light targets not created"
  | noLightPass => "No light pass in progress"
  | noAtlas => "Light mask atlas not uploaded"
  | tooManyPasses =>
    "Too many lighting passes in one frame (max: " ++ toString uniformSlots ++ ")"
  | tooManyQuads room => "Too many light quads in one frame (max: " ++ toString room ++ ")"
  | oddIndices count => "Light index count must be even, got " ++ toString count
  | tooManyOccluders count room =>
    toString count ++ " occluders uploaded into buffers sized for " ++ toString room
  | tooManyCasters count room =>
    toString count ++ " shadow casters uploaded into buffers sized for " ++ toString room
  | targetTooLarge name size limit =>
    name ++ " of " ++ toString size.width ++ "x" ++ toString size.height ++
      " exceeds the maximum texture size of " ++ toString limit

/-- The part of a rectangle of pixels that a picture has, `none` when nothing is left of it. -/
def ScissorRect.clamped? (r : ScissorRect) (size : PixelSize) : Option ScissorRect :=
  if size.width ≤ r.x ∨ size.height ≤ r.y then none
  else
    let width := min r.width (size.width - r.x)
    let height := min r.height (size.height - r.y)
    if 0 < width ∧ 0 < height then some ⟨r.x, r.y, width, height⟩ else none

structure DeviceFrame where
  uniforms : Nat
  vertices : Nat
  indices : Nat
  inLightPass : Bool
deriving DecidableEq, Repr, Inhabited

/-- Textures, buffers and the frame that has begun. -/
structure GraphicsDevice where
  maxTextureSize : Nat
  floatTargets : Bool
  targets : Option TargetSizes
  hasAtlas : Bool
  capacities : BufferCapacities
  frame : Option DeviceFrame
deriving DecidableEq, Repr, Inhabited

namespace GraphicsDevice

/-- A device as it is made, without textures and with the smallest buffers. -/
def new (maxTextureSize : Nat) (floatTargets : Bool) : GraphicsDevice :=
  ⟨maxTextureSize, floatTargets, none, false, ⟨1, 1, 1⟩, none⟩

def capabilities (d : GraphicsDevice) : Capabilities := ⟨d.maxTextureSize, d.floatTargets⟩

def vertexRoom (d : GraphicsDevice) : Nat := 4 * max d.capacities.maxLights 1

def indexRoom (d : GraphicsDevice) : Nat := 6 * max d.capacities.maxLights 1

def casterRoom (d : GraphicsDevice) : Nat := max d.capacities.maxShadowLights 1

/-- The rules for a part of a command: a refusal or a result, and the device after it. -/
abbrev Rules (α : Type) : Type := ExceptT Refusal (StateM GraphicsDevice) α

def needFrame : Rules DeviceFrame := do
  match (← get).frame with
  | some frame => return frame
  | none => throw .noFrame

def needTargets : Rules TargetSizes := do
  match (← get).targets with
  | some targets => return targets
  | none => throw .noTargets

/-- The mask atlas, which is only at hand together with the shadow atlas. -/
def needAtlas : Rules Unit := do
  let d ← get
  if d.hasAtlas && d.targets.isSome then return else throw .noAtlas

def needLightPass : Rules Unit := do
  match (← get).frame with
  | some frame => if frame.inLightPass then return else throw .noLightPass
  | none => throw .noLightPass

def putFrame (frame : DeviceFrame) : Rules Unit := modify fun d => { d with frame := some frame }

def takeUniforms : Rules Unit := do
  let frame ← needFrame
  if uniformSlots < frame.uniforms + 1 then throw .tooManyPasses
  putFrame { frame with uniforms := frame.uniforms + 1 }

/-- Takes room for corners of lights and of triangles. -/
def takeLightGeometry (vertices indices : Nat) : Rules Unit := do
  let frame ← needFrame
  let d ← get
  if d.vertexRoom < frame.vertices + vertices ∨ d.indexRoom < frame.indices + indices then
    throw (.tooManyQuads d.capacities.maxLights)
  if indices % 2 ≠ 0 then throw (.oddIndices indices)
  putFrame
    { frame with vertices := frame.vertices + vertices, indices := frame.indices + indices }

def drawPass : Rules Unit := do
  takeUniforms
  let _ ← needFrame
  let _ ← needTargets

def checkSize (name : String) (size : PixelSize) : Rules Unit := do
  let limit := (← get).maxTextureSize
  if limit < size.width ∨ limit < size.height then throw (.targetTooLarge name size limit)

def resizeTargets (sizes : TargetSizes) : Rules Unit := do
  checkSize "framebuffer" sizes.framebuffer
  checkSize "light map" sizes.lightMap
  checkSize "shadow atlas" sizes.shadowAtlas
  modify fun d => { d with targets := some sizes }

/-- The rules for walls and the points that depth maps are seen from. -/
def uploadOcclusion (occluders casters : Nat) : Rules Unit := do
  let d ← get
  if d.capacities.maxOccluders < occluders then
    throw (.tooManyOccluders occluders d.capacities.maxOccluders)
  if d.casterRoom < casters then throw (.tooManyCasters casters d.capacities.maxShadowLights)

def beginLightPass : Rules Unit := do
  drawPass
  let frame ← needFrame
  putFrame { frame with inLightPass := true }

/-- The rules for lights without shadows; nothing to draw is fine at any time. -/
def drawLightBatch (vertices indices : Nat) : Rules Unit := do
  if vertices = 0 ∨ indices = 0 then return
  needLightPass
  takeLightGeometry vertices indices
  needAtlas
  let _ ← needFrame
  let _ ← needTargets

def drawShadowCaster : Rules Unit := do
  needLightPass
  takeLightGeometry 4 0
  needAtlas
  let _ ← needFrame
  let _ ← needTargets

/-- The rules for the end of the light map. -/
def endLightPass : Rules Unit :=
  modify fun d => { d with frame := d.frame.map fun frame => { frame with inLightPass := false } }

def endFrame : Rules Unit := do
  if (← get).frame.isNone then throw .frameEnded
  modify fun d => { d with frame := none }

/-- The rules for each command, in the order in which they are checked. -/
def rules {K : Type} : Command K → Rules Unit
  | .resizeTargets sizes => resizeTargets sizes
  | .resizeBuffers capacities => modify fun d => { d with capacities }
  | .uploadMaskAtlas _ => modify fun d => { d with hasAtlas := true }
  | .beginFrame => putFrame ⟨0, 0, 0, false⟩
  | .uploadOcclusion geometry instances _ =>
    uploadOcclusion geometry.occluderCount instances.length
  | .setDepthState _ => return
  | .clearDepthTarget _ _ => do
    let _ ← needFrame
    let _ ← needTargets
  | .drawOcclusionDepth _ => do
    let _ ← needTargets
    drawPass
  | .beginLightPass _ => beginLightPass
  | .drawLightingFov _ => drawPass
  | .drawOccluderMask _ => drawPass
  | .drawLightBatch vertices indices => drawLightBatch vertices.length indices.length
  | .drawShadowCaster _ => drawShadowCaster
  | .endLightPass => endLightPass
  | .blur _ => drawPass
  | .mergeWallBleed => drawPass
  | .applyFov _ => drawPass
  | .endFrame => endFrame

def perform? {K : Type} (d : GraphicsDevice) (c : Command K) : Except Refusal Unit × GraphicsDevice :=
  (rules c).run.run d

instance {K : Type} : Device GraphicsDevice K where
  perform d c :=
    let (result, d') := perform? d c
    (result.mapError Refusal.message, d')

end GraphicsDevice
end Penumbra
