import Penumbra.Failure
import Penumbra.Frame.MaskAtlas
import Penumbra.Frame.PointLight
import Penumbra.Frame.Stats
import Penumbra.Frame.Target
import Penumbra.Geometry.Circle

/-!
# Which lights a frame draws

A frame takes the first lights that reach into the picture, as many as it has room for.  When more of
them cast shadows than the shadow atlas has rows, the farthest of those are left out.

**Contents**

* `LightQuery`, `LightSelection`.
* `takeReaching`: the first lights that reach into the picture.
* `LightSelection.ofReaching`: the lights with their shadow rows.
* `selectLights`: both together.
-/

namespace Penumbra

/-- What the choice of lights depends on. -/
structure LightQuery (K : Type) where
  eye : Eye K
  worldBounds : RotatedBox K
  worldAabb : Box2 K
  limits : Limits K
  shadowsEnabled : Bool
deriving Repr, Inhabited

structure LightSelection (K : Type) where
  lights : List (PointLight K)
  instances : List (DepthInstance K)
  shadowCount : Nat
  dropped : Nat
  /-- The box around the picture and all lights, where walls may cast shadows into the picture. -/
  expandedBounds : Box2 K
deriving Repr, Inhabited

variable {K : Type} [Scalar K]

/-- A light relative to the eye; it has no shadow row yet. -/
def LightEntry.project (e : LightEntry K) (query : LightQuery K) (masks : MaskAtlas K) :
    PointLight K :=
  let position := e.position - query.eye.position
  { color := e.light.color
    position := position
    range := e.light.radius
    power := e.light.energy
    softness := e.light.softness
    angle := if e.light.maskAutoRotate then e.light.rotation + e.pose.rotation else e.light.rotation
    maskUv := masks.uvBox e.light.mask
    distanceSquared := position.lengthSquared
    castsShadows := query.shadowsEnabled && e.light.castShadows
    shadowRow := 0 }

/-- Whether the circle of a light shares a point with a box; the sides of the box must be in order. -/
def LightEntry.reachesInto (e : LightEntry K) (box : Box2 K) : Except Fault Bool :=
  match (Circle.mk e.position e.light.radius).intersectsBox? box with
  | some b => .ok b
  | none => .error .unorderedInterval

/-- The first lights that reach into a box, at most `room`; later lights are not looked at. -/
def takeReaching (box : Box2 K) : Nat → List (LightEntry K) → Except Fault (List (LightEntry K))
  | 0, _ => .ok []
  | _ + 1, [] => .ok []
  | room + 1, e :: rest => do
    if ← e.reachesInto box then
      return e :: (← takeReaching box room rest)
    else
      takeReaching box (room + 1) rest

/-- Unshadowed lights come first, then lights with shadows, the nearest one first. -/
def nearerFirst (a b : PointLight K) : Bool :=
  (!a.castsShadows && b.castsShadows) ||
    (a.castsShadows == b.castsShadows && Scalar.totalLe a.distanceSquared b.distanceSquared)

def shadowCasterCount (lights : List (PointLight K)) : Nat :=
  (lights.filter (·.castsShadows)).length

/--
The lights that there are shadow rows for: without the farthest ones with shadows.  Of lights that are
equally far away any may stay; this sort keeps their order.
-/
def keepNearest (maxShadowLights : Nat) (lights : List (PointLight K)) : List (PointLight K) :=
  let casters := shadowCasterCount lights
  if maxShadowLights < casters then
    (lights.mergeSort nearerFirst).take (lights.length - (casters - maxShadowLights))
  else lights

/-- Gives the lights with shadows their rows, in order from a row on. -/
def assignRows : Nat → List (PointLight K) → List (PointLight K)
  | _, [] => []
  | row, light :: rest =>
    if light.castsShadows then { light with shadowRow := row } :: assignRows (row + 1) rest
    else light :: assignRows row rest

/-- A shadow map for each light with shadows, in an atlas with some rows. -/
def shadowInstances (rows : Nat) (lights : List (PointLight K)) : List (DepthInstance K) :=
  (lights.filter (·.castsShadows)).map fun light => ⟨light.position, rowToV light.shadowRow rows, 1.0⟩

/-- The lights of a frame out of those that reach into the picture. -/
def LightSelection.ofReaching (query : LightQuery K) (reaching : List (PointLight K)) :
    LightSelection K :=
  let casters := shadowCasterCount reaching
  let lights := assignRows 0 (keepNearest query.limits.maxShadowLights reaching)
  { lights := lights
    instances := shadowInstances query.limits.shadowRows lights
    shadowCount := min casters query.limits.maxShadowLights
    dropped := casters - query.limits.maxShadowLights
    expandedBounds :=
      lights.foldl (fun box light => box.extend (light.position + query.eye.position))
        query.worldAabb }

/-- There is a shadow map for each light with shadows. -/
def LightSelection.check (s : LightSelection K) : Except Fault Unit :=
  if s.instances.length != s.shadowCount then .error .instanceCount else .ok ()

def selectLights (index : SpatialIndex K) (query : LightQuery K) (masks : MaskAtlas K) :
    Except Fault (LightSelection K) := do
  let entries := index.lights query.eye.map query.worldBounds
  let reaching ← takeReaching query.worldAabb query.limits.maxLights entries
  let selection := LightSelection.ofReaching query (reaching.map fun e => e.project query masks)
  selection.check
  return selection

def FrameStats.addSelection (stats : FrameStats) (s : LightSelection K) : FrameStats :=
  { stats with
    totalLights := stats.totalLights + s.lights.length
    shadowLights := stats.shadowLights + s.shadowCount
    droppedShadowLights := stats.droppedShadowLights + s.dropped }

end Penumbra
