import Penumbra.Frame.State

/-!
# The light map

Lights without shadows are collected and drawn many at a time; lights with shadows are drawn one by
one, because each has shadows of its own.

In the stencil, 255 marks what is out of sight, 254 the inside of walls that are in sight, and zero
where light may fall.  Hard shadows mark their pixels with the row of the light plus one.

**Contents**

* `LightFrame.lightQuad?`: the pixels that a light may reach.
* `Composition` and `composeLights`: the pass.
-/

namespace Penumbra

variable {K : Type} [Scalar K]

/-- How the world around the eye lies on the light map, whose rows are counted downwards. -/
structure LightFrame (K : Type) where
  eyeToTarget : Affine K
  targetToEye : Affine K
  /-- Width and height in pixels of the picture of a light of range one. -/
  footprintScale : Vec2 K
  target : Box2 K
deriving Repr, Inhabited

namespace LightFrame

/-- The frame for a light map of some size. -/
def new (viewport : Viewport K) (eye : Eye K) (targetSize : PixelSize) : LightFrame K :=
  let eyeToTarget := viewport.eyeToTarget eye targetSize
  let size : Vec2 K := targetSize.toVec2
  { eyeToTarget := eyeToTarget
    targetToEye := eyeToTarget.inverse
    footprintScale := viewport.clipScale eye * size
    target := ⟨0.0, 0.0, size.x, size.y⟩ }

/-- The part of the light map that a light may reach. -/
def footprint (f : LightFrame K) (light : PointLight K) : Box2 K :=
  (Box2.around (f.eyeToTarget.apply light.position) (f.footprintScale.scale light.range)).intersect
    f.target

/-- The whole pixels that a part of the light map touches. -/
def scissorOf (box : Box2 K) : ScissorRect :=
  let x := Scalar.floorPixels box.left
  let y := Scalar.floorPixels box.bottom
  ⟨x, y, max (Scalar.ceilPixels box.right - x) 1, max (Scalar.ceilPixels box.top - y) 1⟩

/-- The quad over a part of the light map. -/
def quadOf (f : LightFrame K) (light : PointLight K) (shadowRowV : K) (box : Box2 K) : LightQuad K :=
  let corner := fun pixel : Vec2 K =>
    LightVertex.ofLight light pixel (f.targetToEye.apply pixel) shadowRowV
  ⟨corner box.bottomLeft, corner box.bottomRight, corner box.topRight, corner box.topLeft⟩

/-- The quad of a light and the pixels that it touches, `none` when the light reaches no pixel. -/
def lightQuad? (f : LightFrame K) (light : PointLight K) (shadowRowV : K) :
    Option (LightQuad K × ScissorRect) :=
  let box := f.footprint light
  if box.isEmpty then none else some (f.quadOf light shadowRowV box, scissorOf box)

end LightFrame

/-- What the light map of a frame depends on, besides the lights. -/
structure Composition (K : Type) where
  eye : Eye K
  viewport : Viewport K
  ambient : Color K
  targetSize : PixelSize
  softShadows : Bool
  occluderCount : Nat
  shadowRows : Nat
deriving Repr, Inhabited

/-- Draws the quads that have been collected, if there are any. -/
def flushBatch : FramePass K Unit := do
  let s ← Pass.get
  if s.batch.isEmpty then return
  drawWith 1 (.drawLightBatch s.batch.vertices s.batch.indices)
  Pass.modify fun s => { s with batch := s.batch.clear }

/-- Collects a quad; what has been collected is drawn first when there is no more room. -/
def collectQuad (quad : LightQuad K) : FramePass K Unit := do
  let s ← Pass.get
  if s.batch.isFull then flushBatch
  let s ← Pass.get
  let batch ← Pass.ofFault (s.batch.push quad)
  Pass.modify fun s => { s with batch }

def collectLights (frame : LightFrame K) : List (PointLight K) → FramePass K Unit
  | [] => return
  | light :: rest => do
    if let some (quad, _) := frame.lightQuad? light 0.0 then collectQuad quad
    collectLights frame rest

/-- The stencil value of the shadows of a light. -/
def stencilRef (light : PointLight K) : Nat := min (deviceWord (light.shadowRow + 1)) 255

def ShadowMode.drawCalls : ShadowMode → Nat
  | soft true => 3
  | soft false => 2
  | hard _ => 2

def drawCasters (c : Composition K) (floatTargets : Bool) (frame : LightFrame K) :
    List (PointLight K) → FramePass K Unit
  | [] => return
  | light :: rest => do
    if let some (quad, scissor) := frame.lightQuad? light (rowToV light.shadowRow c.shadowRows) then
      let mode := if c.softShadows then ShadowMode.soft floatTargets else .hard (stencilRef light)
      drawWith mode.drawCalls (.drawShadowCaster ⟨quad, scissor, mode⟩)
    drawCasters c floatTargets frame rest

def composeLights (c : Composition K) (floatTargets : Bool) (lights : List (PointLight K)) :
    FramePass K Unit := do
  Pass.issue (.beginLightPass ⟨c.ambient.withAlpha 0.0, c.targetSize⟩)
  drawWith 1 (.drawLightingFov ⟨c.viewport.clipToDiff c.eye c.eye.position, Color.black⟩)
  if 0 < c.occluderCount then
    drawWith 1 (.drawOccluderMask ⟨deviceWord c.occluderCount, c.viewport.eyeToClip c.eye⟩)
  let frame := LightFrame.new c.viewport c.eye c.targetSize
  collectLights frame (lights.filter fun light => !light.castsShadows)
  flushBatch
  drawCasters c floatTargets frame (lights.filter fun light => light.castsShadows)
  Pass.issue .endLightPass

end Penumbra
