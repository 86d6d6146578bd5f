import Penumbra.Color
import Penumbra.Geometry.Vec2

/-!
# Lights

A light of an entity, and the changes that may be made to it.  A change that moves the light, or
takes it into or out of its tree, queues an update of the tree.

**Contents**

* `Light` and `Light.standard`.
* `LightChange` and `LightChange.apply`: a change tells whether it changed anything, where that
  matters to the caller.
-/

namespace Penumbra

/-- A point light of an entity. -/
structure Light (K : Type) where
  enabled : Bool
  offset : Vec2 K
  color : Color K
  radius : K
  energy : K
  softness : K
  falloff : K
  curveFactor : K
  castShadows : Bool
  rotation : K
  maskAutoRotate : Bool
  mask : Option String
  /-- Whether the entity is inside something that keeps the light in. -/
  containerOccluded : Bool
  /-- Whether the tree has yet to take notice of a change. -/
  updateQueued : Bool
deriving BEq, Repr, Inhabited

inductive LightChange (K : Type) where
  | enabled (value : Bool)
  | containerOccluded (value : Bool)
  /-- Another range; negative ranges count as zero. -/
  | radius (value : K)
  | offset (value : Vec2 K)
  | castShadows (value : Bool)
  | color (value : Color K)
  | energy (value : K)
  /-- Another penumbra; negative widths count as zero. -/
  | softness (value : K)
  | rotation (value : K)
  | mask (value : Option String)
deriving Repr, Inhabited

namespace Light

variable {K : Type} [Scalar K]

def standard : Light K where
  enabled := true
  offset := Vec2.zero
  color := Color.white
  radius := 5.0
  energy := 1.0
  softness := 1.0
  falloff := 6.8
  curveFactor := 0.0
  castShadows := true
  rotation := 0.0
  maskAutoRotate := false
  mask := none
  containerOccluded := false
  updateQueued := false

def addsToTree (l : Light K) : Bool := l.enabled && !l.containerOccluded

/-- Switches the light; tells whether that changed anything. -/
def setEnabled (l : Light K) (value : Bool) : Light K × Bool :=
  if l.enabled == value then (l, false)
  else ({ l with enabled := value, updateQueued := true }, true)

/-- Notes whether a container keeps the light in; tells whether that changed anything. -/
def setContainerOccluded (l : Light K) (value : Bool) : Light K × Bool :=
  if l.containerOccluded == value then (l, false)
  else ({ l with containerOccluded := value, updateQueued := true }, true)

/-- Part of the old range that a new one has to differ by. -/
def radiusTolerance : K := 0.001

/-- Sets the range, unless it stays within a thousandth; tells whether that changed anything. -/
def setRadius (l : Light K) (value : K) : Light K × Bool :=
  let radius := Scalar.maximum value 0.0
  if Scalar.abs (l.radius - radius) ≤ Scalar.abs l.radius * radiusTolerance then (l, false)
  else ({ l with radius := radius, updateQueued := true }, true)

/-- Moves the light; tells whether that changed anything. -/
def setOffset (l : Light K) (value : Vec2 K) : Light K × Bool :=
  if l.offset == value then (l, false)
  else ({ l with offset := value, updateQueued := true }, true)

end Light

/-- Makes a change; the result is only told for changes that may leave the tree stale. -/
def LightChange.apply {K : Type} [Scalar K] (l : Light K) : LightChange K → Light K × Option Bool
  | .enabled value => (l.setEnabled value).map id some
  | .containerOccluded value => (l.setContainerOccluded value).map id some
  | .radius value => (l.setRadius value).map id some
  | .offset value => (l.setOffset value).map id some
  | .castShadows value => ({ l with castShadows := value }, none)
  | .color value => ({ l with color := value }, none)
  | .energy value => ({ l with energy := value }, none)
  | .softness value => ({ l with softness := Scalar.maximum value 0.0 }, none)
  | .rotation value => ({ l with rotation := value }, none)
  | .mask value => ({ l with mask := value }, none)

end Penumbra
