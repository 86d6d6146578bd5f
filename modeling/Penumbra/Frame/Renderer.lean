import Penumbra.Frame.Compose
import Penumbra.Frame.Depth
import Penumbra.Frame.Post

/-!
# The renderer

A renderer draws the light, the shadows and the limits of sight of one eye in each frame.

**Contents**

* `Renderer`: settings, masks, and what frames change.
* `Renderer.create`, `Renderer.loadMasks`, `Renderer.applyConfig`: set-up and changes.
* `Renderer.drawFrame`: a frame.
-/

namespace Penumbra

/-- How the map that is looked at is lit. -/
structure MapLighting (K : Type) where
  enabled : Bool
  ambient : Color K
deriving BEq, Repr, Inhabited

/-- Settings, masks and what frames change; the device stands apart. -/
structure Renderer (K : Type) where
  config : Config K
  limits : Limits K
  fovColor : Color K
  masks : MaskAtlas K
  frame : FrameState K
deriving Inhabited

namespace Renderer

variable {K : Type} [Scalar K]

/-- The renderer for some settings before its first frame, without masks. -/
def new (config : Config K) : Renderer K :=
  let limits := Limits.ofConfig config
  { config := config
    limits := limits
    fovColor := config.fovColorValue
    masks := MaskAtlas.empty
    frame := FrameState.new limits.maxOccluders limits.batchQuads }

/-- Makes room for the lights of a frame; a user may ask for any number of them. -/
def reserveLights (limits : Limits K) : Except Fault Unit :=
  Memory.reserve limits.maxLights PointLight.bytes

/-- Sets up a device and makes the renderer for it. -/
def create (config : Config K) : Pass K Unit (Renderer K) := do
  let renderer := new config
  Pass.issue (.resizeBuffers (BufferCapacities.ofLimits renderer.limits))
  Pass.issue (.uploadMaskAtlas renderer.masks.image)
  Pass.ofFault (reserveLights renderer.limits)
  return renderer

/-- The widest mask atlas that settings and device allow. -/
def widestAtlas (r : Renderer K) (device : Capabilities) : Nat :=
  min device.maxTextureSize r.config.atlasMaxSize

/-- Puts the masks that load into an atlas; on an error the atlas before it stays in use. -/
def loadMasks (device : Capabilities) (prototypes : List MaskPrototype)
    (load : String → Option Image) : Pass K (Renderer K) Unit := do
  let r ← Pass.get
  match MaskAtlas.build prototypes load (r.widestAtlas device) with
  | .error e => Pass.fail e
  | .ok masks =>
    Pass.issue (.uploadMaskAtlas masks.image)
    Pass.modify fun r => { r with masks }

/-- The renderer with other settings, before anything is made anew. -/
def withConfig (r : Renderer K) (config : Config K) : Renderer K :=
  { r with
    config
    limits := Limits.ofConfig config
    fovColor := if config.fovColor != r.config.fovColor then config.fovColorValue else r.fovColor }

/-- The renderer with room for other numbers of quads and walls. -/
def resized (r : Renderer K) (changes : ConfigChanges) : Renderer K :=
  let batch :=
    if changes.lightCapacity then r.frame.batch.resize r.limits.batchQuads else r.frame.batch
  let geometry :=
    if changes.occluderCapacity then OcclusionGeometry.new r.limits.maxOccluders
    else r.frame.geometry
  { r with frame := { r.frame with batch, geometry } }

/-- Takes over other settings and makes anew what they make stale. -/
def applyConfig (config : Config K) : Pass K (Renderer K) Unit := do
  let r ← Pass.get
  let changes := config.changesFrom r.config
  Pass.modify fun r => (r.withConfig config).resized changes
  if changes.lightCapacity then
    let r ← Pass.get
    Pass.ofFault (reserveLights r.limits)
  if changes.lightCapacity || changes.occluderCapacity then
    let r ← Pass.get
    Pass.issue (.resizeBuffers (BufferCapacities.ofLimits r.limits))
  if changes.renderTargets then
    Pass.modify fun r => { r with frame := { r.frame with targetSizes := none } }

def isActive (r : Renderer K) (eye : Eye K) (lighting : MapLighting K) : Bool :=
  r.config.enabled && eye.drawLight && eye.map != MapId.nowhere && lighting.enabled

/-- Makes the textures anew when they do not fit the picture. -/
def resizeTargets (sizes : TargetSizes) : FramePass K Unit := do
  let s ← Pass.get
  if s.targetSizes != some sizes then
    Pass.issue (.resizeTargets sizes)
    Pass.modify fun s => { s with targetSizes := some sizes }

def lightQuery (r : Renderer K) (eye : Eye K) (viewport : Viewport K) : LightQuery K :=
  let worldBounds := viewport.worldBounds eye
  { eye := eye
    worldBounds := worldBounds
    worldAabb := worldBounds.boundingBox
    limits := r.limits
    shadowsEnabled := r.config.drawShadows }

/-- Chooses the lights and collects the walls; gives the number of lights with shadows. -/
def gather (r : Renderer K) (index : SpatialIndex K) (eye : Eye K) (viewport : Viewport K) :
    FramePass K Nat := do
  let selection ← Pass.ofFault (selectLights index (r.lightQuery eye viewport) r.masks)
  Pass.modify fun s =>
    { s with
      lights := selection.lights
      instances := selection.instances
      stats := s.stats.addSelection selection
      geometry := s.geometry.build index eye selection.expandedBounds }
  let s ← Pass.get
  Pass.ofFault s.geometry.check
  Pass.modify fun s => { s with stats := s.stats.addGeometry s.geometry }
  return selection.shadowCount

def drawLight (r : Renderer K) (device : Capabilities) (eye : Eye K) (viewport : Viewport K)
    (lighting : MapLighting K) (sizes : TargetSizes) : FramePass K Unit := do
  let s ← Pass.get
  composeLights
    { eye := eye
      viewport := viewport
      ambient := lighting.ambient
      targetSize := sizes.lightMap
      softShadows := r.config.softShadows
      occluderCount := s.geometry.occluderCount
      shadowRows := r.limits.shadowRows }
    device.floatTargets s.lights
  drawPost ⟨r.config.lightBlur, r.config.lightBlurFactor, viewport.cameraSize eye⟩

def activeFrame (r : Renderer K) (device : Capabilities) (index : SpatialIndex K) (eye : Eye K)
    (viewport : Viewport K) (lighting : MapLighting K) : FramePass K Unit := do
  let sizes := TargetSizes.new viewport r.limits
  resizeTargets sizes
  Pass.issue .beginFrame
  let shadowCount ← r.gather index eye viewport
  let s ← Pass.get
  Pass.issue (.uploadOcclusion s.geometry s.instances fovInstances)
  drawDepth device.floatTargets s.geometry
    ⟨deviceWord shadowCount, r.config.drawShadows, eye.drawFov⟩
  if r.config.drawLighting then r.drawLight device eye viewport lighting sizes
  if eye.drawFov then hideUnseen viewport eye r.fovColor
  Pass.issue .endFrame

/-- A frame: the counters start anew, and nothing else happens unless all is switched on. -/
def framePass (r : Renderer K) (device : Capabilities) (index : SpatialIndex K) (eye : Eye K)
    (viewport : Viewport K) (lighting : MapLighting K) : FramePass K FrameStats := do
  Pass.modify fun s => { s with stats := FrameStats.zero }
  if r.isActive eye lighting then r.activeFrame device index eye viewport lighting
  let s ← Pass.get
  return s.stats

def drawFrame (device : Capabilities) (index : SpatialIndex K) (eye : Eye K) (viewport : Viewport K)
    (lighting : MapLighting K) : Pass K (Renderer K) FrameStats := do
  let r ← Pass.get
  Pass.within (·.frame) (fun r frame => { r with frame })
    (r.framePass device index eye viewport lighting)

end Renderer
end Penumbra
