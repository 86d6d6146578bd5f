import Penumbra.Color

/-!
# Settings

`Config` holds the settings as a user wrote them; `Limits` are the capacities that follow from them
and that everything else is sized by.

**Contents**

* `Config` and `Config.standard`, the settings that a user need not write.
* `Config.fovColorValue`: the colour outside the field of view, black when it is misspelt.
* `Config.changesFrom`: which resources two settings do not share.
* `Limits.ofConfig`, `Limits.shadowRows`.
-/

namespace Penumbra

/-- The settings as a user wrote them. -/
structure Config (K : Type) where
  enabled : Bool
  drawLighting : Bool
  /-- Draw shadows; without them all lights are drawn unshadowed. -/
  drawShadows : Bool
  maxLightCount : Nat
  maxShadowCasters : Nat
  maxOccluderCount : Nat
  resolutionScale : K
  softShadows : Bool
  lightBlur : Bool
  lightBlurFactor : K
  fovColor : String
  atlasMaxSize : Nat
  batchQuads : Nat
deriving BEq, Repr, Inhabited

/-- Resources that a change of settings makes stale. -/
structure ConfigChanges where
  lightCapacity : Bool
  occluderCapacity : Bool
  renderTargets : Bool
deriving DecidableEq, Repr, Inhabited

def ConfigChanges.any (c : ConfigChanges) : Bool :=
  c.lightCapacity || c.occluderCapacity || c.renderTargets

namespace Config

variable {K : Type} [Scalar K]

def standard : Config K where
  enabled := true
  drawLighting := true
  drawShadows := true
  maxLightCount := 2048
  maxShadowCasters := 128
  maxOccluderCount := 2048
  resolutionScale := 0.5
  softShadows := true
  lightBlur := true
  lightBlurFactor := 0.001
  fovColor := "#000000"
  atlasMaxSize := 8192
  batchQuads := 256

/-- The colour outside the field of view; a misspelt one is black. -/
def fovColorValue (c : Config K) : Color K := (Color.ofHex? c.fovColor).getD Color.black

/-- The resources that have to be made anew when `next` replaces `previous`. -/
def changesFrom (next previous : Config K) : ConfigChanges where
  lightCapacity :=
    next.maxLightCount != previous.maxLightCount ||
      next.maxShadowCasters != previous.maxShadowCasters ||
      next.batchQuads != previous.batchQuads
  occluderCapacity := next.maxOccluderCount != previous.maxOccluderCount
  renderTargets :=
    !(next.resolutionScale == previous.resolutionScale) ||
      next.softShadows != previous.softShadows ||
      next.maxShadowCasters != previous.maxShadowCasters

end Config

/-- Capacities that follow from the settings. -/
structure Limits (K : Type) where
  maxLights : Nat
  maxShadowLights : Nat
  maxOccluders : Nat
  resolutionScale : K
  batchQuads : Nat
deriving BEq, Repr, Inhabited

namespace Limits

variable {K : Type} [Scalar K]

/--
Most lights with shadows: the stencil values 254 and 255 mark walls and what is out of sight, and
the light of row `n` uses `n + 1`.
-/
def mostShadowLights : Nat := 253

def fewestOccluders : Nat := 1024

def mostOccluders : Nat := 8192

def smallestResolutionScale : K := 0.05

def ofConfig (c : Config K) : Limits K :=
  let maxLights := max c.maxLightCount 1
  { maxLights
    maxShadowLights := min (min c.maxShadowCasters maxLights) mostShadowLights
    maxOccluders := min (max c.maxOccluderCount fewestOccluders) mostOccluders
    resolutionScale :=
      if c.resolutionScale < smallestResolutionScale then smallestResolutionScale
      else c.resolutionScale
    batchQuads := max c.batchQuads 1 }

/-- Rows of the shadow atlas; there is always one. -/
def shadowRows (l : Limits K) : Nat := max l.maxShadowLights 1

end Limits
end Penumbra
