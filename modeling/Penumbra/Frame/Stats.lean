/-!
# Counters of a frame
-/

namespace Penumbra

structure FrameStats where
  totalLights : Nat
  shadowLights : Nat
  /-- Lights with shadows that were left out because the shadow atlas was full. -/
  droppedShadowLights : Nat
  occluders : Nat
  drawCalls : Nat
deriving DecidableEq, Repr, Inhabited

def FrameStats.zero : FrameStats := ⟨0, 0, 0, 0, 0⟩

end Penumbra
