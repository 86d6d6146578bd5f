import Penumbra.Frame.Script
import Penumbra.Frame.Selection

/-!
# What a frame changes

**Contents**

* `LightBatch`: quads of lights, collected until there is no more room.
* `DepthPhase`: how far the depth passes are.
* `FrameState`: all that a frame changes besides the device.
-/

namespace Penumbra

/-- Quads of lights that have not been drawn yet. -/
structure LightBatch (K : Type) where
  capacity : Nat
  quads : List (LightQuad K)
deriving BEq, Repr, Inhabited

namespace LightBatch

variable {K : Type}

/-- The most quads whose corners can be numbered in 16 bits. -/
def mostQuads : Nat := 16384

/-- An empty batch with room for some quads, at least one. -/
def new (quads : Nat) : LightBatch K := ⟨min (max quads 1) mostQuads, []⟩

def resize (_ : LightBatch K) (quads : Nat) : LightBatch K := new quads

def clear (b : LightBatch K) : LightBatch K := { b with quads := [] }

def isEmpty (b : LightBatch K) : Bool := b.quads.isEmpty

def isFull (b : LightBatch K) : Bool := b.capacity ≤ b.quads.length

/-- The batch with one more quad; a full batch takes none. -/
def push (b : LightBatch K) (q : LightQuad K) : Except Fault (LightBatch K) :=
  if b.isFull then .error .batchFull else .ok { b with quads := b.quads ++ [q] }

def vertices (b : LightBatch K) : List (LightVertex K) := b.quads.flatMap LightQuad.vertices

def indices (b : LightBatch K) : List UInt16 := quadIndices b.quads.length

end LightBatch

/-- How far the depth passes are. -/
inductive DepthPhase where
  | idle
  | preparing
  | drawingShadows
  | drawingFov
  | finalized
deriving DecidableEq, Repr, Inhabited

def DepthPhase.next : DepthPhase → DepthPhase
  | idle => preparing
  | preparing => drawingShadows
  | drawingShadows => drawingFov
  | drawingFov => finalized
  | finalized => idle

/-- All that a frame changes besides the device. -/
structure FrameState (K : Type) where
  lights : List (PointLight K)
  instances : List (DepthInstance K)
  geometry : OcclusionGeometry K
  batch : LightBatch K
  phase : DepthPhase
  stats : FrameStats
  /-- Sizes of the textures that the device made last; `none` when they are stale. -/
  targetSizes : Option TargetSizes
deriving Repr, Inhabited

def FrameStats.addGeometry {K : Type} (stats : FrameStats) (g : OcclusionGeometry K) : FrameStats :=
  { stats with occluders := stats.occluders + g.occluderCount }

namespace FrameState

variable {K : Type} [Scalar K]

/-- The state before the first frame, with room for walls and quads. -/
def new (maxOccluders batchQuads : Nat) : FrameState K where
  lights := []
  instances := []
  geometry := OcclusionGeometry.new maxOccluders
  batch := LightBatch.new batchQuads
  phase := .idle
  stats := FrameStats.zero
  targetSizes := none

def countDraws (n : Nat) (s : FrameState K) : FrameState K :=
  { s with stats := { s.stats with drawCalls := s.stats.drawCalls + n } }

end FrameState

abbrev FramePass (K α : Type) : Type := Pass K (FrameState K) α

/-- A command that takes some draw calls of the device, counted when it is carried out. -/
def drawWith {K : Type} [Scalar K] (calls : Nat) (c : Command K) : FramePass K Unit := do
  Pass.issue c
  Pass.modify (FrameState.countDraws calls)

end Penumbra
