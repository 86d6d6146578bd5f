import Penumbra.Frame.State

/-!
# Depth maps

The segments of the walls are drawn into the shadow atlas, a row for each light with shadows, and
into the map of what is in sight, two rows for the eye.

**Contents**

* `fovInstances`, `depthClear`: what the maps are seen from and cleared to.
* `DepthPasses`: what is drawn; `drawDepth`: the pass.
-/

namespace Penumbra

variable {K : Type} [Scalar K]

/-- The depth where nothing is in the way, farther than any light shines. -/
def farthestDepth : K := 1234.0

/-- The two rows of the eye: the first sees the nearest faces, the second the first layer of walls. -/
def fovInstances : List (DepthInstance K) :=
  [⟨Vec2.zero, rowToV 0 2, 1.0⟩, ⟨Vec2.zero, rowToV 1 2, -1.0⟩]

/-- What depth maps are cleared to: the farthest depth and its square, or white where colours have no
room for them. -/
def depthClear (floatTargets : Bool) : DepthClear K where
  color :=
    if floatTargets then ⟨farthestDepth, farthestDepth * farthestDepth, 0.0, 1.0⟩ else Color.white
  depth := 1.0

/-- What is drawn into the depth maps. -/
structure DepthPasses where
  shadowInstances : Nat
  drawShadows : Bool
  /-- Whether the map of what is in sight is drawn. -/
  drawFov : Bool
deriving DecidableEq, Repr, Inhabited

/-- Goes on to the next phase, which must be the expected one. -/
def advancePhase (phase : DepthPhase) : FramePass K Unit := do
  let s ← Pass.get
  if s.phase.next = phase then Pass.modify fun s => { s with phase }
  else Pass.fail (.fault .phaseOrder)

/-- Draws segments into the rows of a depth map, once for each side of the seam. -/
def drawDepthTarget (target : DepthTarget) (vertexCount instanceCount : Nat) : FramePass K Unit := do
  if vertexCount = 0 ∨ instanceCount = 0 then return
  drawWith 1 (.drawOcclusionDepth ⟨target, vertexCount, instanceCount, 0.0⟩)
  drawWith 1 (.drawOcclusionDepth ⟨target, vertexCount, instanceCount, 1.0⟩)

/-- The phases of the depth maps in their order. -/
def depthPhases (floatTargets : Bool) (geometry : OcclusionGeometry K) (passes : DepthPasses) :
    FramePass K Unit := do
  let clear := depthClear floatTargets
  advancePhase .preparing
  Pass.issue (.setDepthState .prepared)
  advancePhase .drawingShadows
  Pass.issue (.clearDepthTarget .shadowAtlas clear)
  if passes.drawShadows then
    drawDepthTarget .shadowAtlas (deviceWord geometry.lightVertices.length) passes.shadowInstances
  advancePhase .drawingFov
  Pass.issue (.clearDepthTarget .fovMap clear)
  if passes.drawFov then
    drawDepthTarget .fovMap (deviceWord geometry.fovVertices.length) 2
  advancePhase .finalized
  Pass.issue (.setDepthState .finalized)
  advancePhase .idle

/-- Draws the depth maps.  A refused command ends the phases, so that the next frame can begin. -/
def drawDepth (floatTargets : Bool) (geometry : OcclusionGeometry K) (passes : DepthPasses) :
    FramePass K Unit :=
  Pass.onRefusal (fun s => { s with phase := .idle }) (depthPhases floatTargets geometry passes)

end Penumbra
