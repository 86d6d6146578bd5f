import Penumbra.Frame.GraphicsDevice

/-!
# Buffers of a graphics device

What commands hand over is written to buffers.  Those for uniforms, and for the corners and triangles
of lights, are filled from the start in each frame; the others are written anew each time.  All but
the one for uniforms are made again when their capacities change, also in the middle of a frame.

**Contents**

* `DeviceBuffer`: the buffers with their room and size in bytes.
* `BufferCapacities.make`: capacities that buffers can be made for.
* `BufferWrite`, `GraphicsDevice.writing`: the rules for each command, with what it writes.
* `GraphicsDevice.call`, `GraphicsDevice.calls`: commands in any order, and what came of them.
-/

namespace Penumbra

/-- A buffer that commands write to. -/
inductive DeviceBuffer where
  | uniforms
  | lightSegments
  | fovSegments
  | maskVertices
  | lightInstances
  | fovInstances
  | lightVertices
  | lightIndices
deriving DecidableEq, Repr, Inhabited

/-- The bytes of the uniforms of a pass: sixteen numbers of 32 bits. -/
def passUniformBytes : Nat := 64

/-- The bytes from one slot for uniforms to the next, a multiple of what the device is aligned to. -/
def uniformStride (alignment : Nat) : Nat :=
  (passUniformBytes + alignment - 1) / alignment * alignment

namespace DeviceBuffer

/-- The bytes of an item; those of vertices are numbers of 32 bits, indices have 16 bits. -/
def itemBytes (alignment : Nat) : DeviceBuffer → Nat
  | uniforms => uniformStride alignment
  | lightSegments | fovSegments => Segment.bytes
  | maskVertices => 8
  | lightInstances | fovInstances => 16
  | lightVertices => 80
  | lightIndices => 2

/-- The number of items that there is room for. -/
def room (capacities : BufferCapacities) : DeviceBuffer → Nat
  | uniforms => uniformSlots
  | lightSegments | fovSegments =>
    max (capacities.maxOccluders * segmentsPerOccluder * verticesPerSegment) 1
  | maskVertices => max (capacities.maxOccluders * maskVerticesPerOccluder) 1
  | lightInstances => max capacities.maxShadowLights 1
  | fovInstances => 2
  | lightVertices => 4 * max capacities.maxLights 1
  | lightIndices => 6 * max capacities.maxLights 1

/-- The size in bytes. -/
def size (alignment : Nat) (capacities : BufferCapacities) (b : DeviceBuffer) : Nat :=
  b.room capacities * b.itemBytes alignment

/-- The buffers that are made again when capacities change. -/
def resized : List DeviceBuffer :=
  [lightSegments, fovSegments, maskVertices, lightInstances, fovInstances, lightVertices,
    lightIndices]

/-- The largest size, because sizes are numbers of 64 bits. -/
def mostBytes : Nat := 18446744073709551615

end DeviceBuffer

/--
Makes buffers, if their sizes can be told.  The build that is modelled checks its assertions and checks
for overflow, and so a size of more than 64 bits is a fault.
-/
def BufferCapacities.make (alignment : Nat) (capacities : BufferCapacities) : Except Fault Unit :=
  if DeviceBuffer.resized.all fun b => b.size alignment capacities ≤ DeviceBuffer.mostBytes then
    .ok ()
  else .error .sizeExceeded

/-- Bytes that are written to a buffer, from a place on. -/
structure BufferWrite where
  buffer : DeviceBuffer
  offset : Nat
  bytes : Nat
deriving DecidableEq, Repr, Inhabited

/-- Items that are written to a buffer, after those before them. -/
def BufferWrite.items (alignment : Nat) (b : DeviceBuffer) (first count : Nat) : BufferWrite :=
  ⟨b, first * b.itemBytes alignment, count * b.itemBytes alignment⟩

/-- A device, and what was written to its buffers. -/
structure WrittenDevice where
  device : GraphicsDevice
  writes : List BufferWrite
deriving DecidableEq, Repr, Inhabited

namespace GraphicsDevice

/-- The rules for a part of a command, with what it writes. -/
abbrev Writing (α : Type) : Type := ExceptT Refusal (StateM WrittenDevice) α

/-- A part of a command that writes nothing. -/
def Writing.ofRules {α : Type} (x : Rules α) : Writing α := ExceptT.mk fun s =>
  let (answer, device) := x.run.run s.device
  (answer, { s with device })

def write (ws : List BufferWrite) : Writing Unit := modify fun s => { s with writes := s.writes ++ ws }

variable (alignment : Nat)

/-- The uniforms of a pass, in the first free slot of the frame. -/
def passWrite (frame : DeviceFrame) : BufferWrite :=
  ⟨.uniforms, frame.uniforms * uniformStride alignment, passUniformBytes⟩

def pushUniforms : Writing Unit := do
  let frame ← Writing.ofRules needFrame
  Writing.ofRules takeUniforms
  write [passWrite alignment frame]

/-- Corners of lights and of triangles, after those of the frame. -/
def lightWrites (frame : DeviceFrame) (vertices indices : Nat) : List BufferWrite :=
  .items alignment .lightVertices frame.vertices vertices ::
    if indices = 0 then [] else [.items alignment .lightIndices frame.indices indices]

def pushLightGeometry (vertices indices : Nat) : Writing Unit := do
  let frame ← Writing.ofRules needFrame
  Writing.ofRules (takeLightGeometry vertices indices)
  write (lightWrites alignment frame vertices indices)

/-- A pass over the picture. -/
def pushPass : Writing Unit := do
  pushUniforms alignment
  Writing.ofRules do
    let _ ← needFrame
    let _ ← needTargets

/-- Lights are drawn once their corners are written. -/
def pushLights (vertices indices : Nat) : Writing Unit := do
  Writing.ofRules needLightPass
  pushLightGeometry alignment vertices indices
  Writing.ofRules do
    needAtlas
    let _ ← needFrame
    let _ ← needTargets

/-- The walls and the points that depth maps are seen from; what is empty is not written. -/
def uploads {K : Type} (geometry : OcclusionGeometry K)
    (lightInstances fovInstances : List (DepthInstance K)) : List BufferWrite :=
  let pieces : List (DeviceBuffer × Nat) :=
    [(.lightSegments, geometry.lightVertices.length), (.fovSegments, geometry.fovVertices.length),
      (.maskVertices, geometry.maskVertices.length), (.lightInstances, lightInstances.length),
      (.fovInstances, fovInstances.length)]
  (pieces.filter (·.2 ≠ 0)).map fun (b, count) => .items alignment b 0 count

/-- The rules for each command, with what it writes. -/
def writing {K : Type} : Command K → Writing Unit
  | .uploadOcclusion geometry lightInstances fovInstances => do
    Writing.ofRules (uploadOcclusion geometry.occluderCount lightInstances.length)
    write (uploads alignment geometry lightInstances fovInstances)
  | .drawOcclusionDepth _ => do
    let _ ← Writing.ofRules needTargets
    pushPass alignment
  | .beginLightPass _ => do
    pushPass alignment
    Writing.ofRules do
      let frame ← needFrame
      putFrame { frame with inLightPass := true }
  | .drawLightingFov _ => pushPass alignment
  | .drawOccluderMask _ => pushPass alignment
  | .drawLightBatch vertices indices =>
    if vertices.length = 0 ∨ indices.length = 0 then return
    else pushLights alignment vertices.length indices.length
  | .drawShadowCaster _ => pushLights alignment 4 0
  | .blur _ => pushPass alignment
  | .mergeWallBleed => pushPass alignment
  | .applyFov _ => pushPass alignment
  | c => Writing.ofRules (rules c)

end GraphicsDevice

/-- A command that a device was asked for, with the answer and what was written; and the device before
and after it. -/
structure DeviceCall (K : Type) where
  command : Command K
  before : GraphicsDevice
  answer : Except Fault (Except Refusal Unit)
  writes : List BufferWrite
  after : GraphicsDevice

namespace GraphicsDevice

variable {K : Type} (alignment : Nat)

/-- Buffers are only made anew if their sizes can be told. -/
def makes : Command K → Except Fault Unit
  | .resizeBuffers capacities => capacities.make alignment
  | _ => .ok ()

/-- A device is asked for a command; one that ends in a fault changes nothing. -/
def call (d : GraphicsDevice) (c : Command K) : DeviceCall K :=
  match makes alignment c with
  | .error fault => ⟨c, d, .error fault, [], d⟩
  | .ok () =>
    let (answer, s) := (writing alignment c).run.run ⟨d, []⟩
    ⟨c, d, .ok answer, s.writes, s.device⟩

/-- Commands in any order, each of which may be refused or end in a fault. -/
def calls (d : GraphicsDevice) : List (Command K) → List (DeviceCall K)
  | [] => []
  | c :: rest =>
    let first := d.call alignment c
    first :: calls first.after rest

end GraphicsDevice
end Penumbra
