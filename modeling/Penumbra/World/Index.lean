import Penumbra.Geometry.Pose
import Penumbra.Geometry.RotatedBox
import Penumbra.Light.Basic
import Penumbra.Occluder

/-!
# What a frame asks of a world

Everything that draws or measures light asks the same two questions: which lights and which walls
overlap an area of a map.  An index is whatever answers them; the order of an answer counts, because
a frame with little room takes the first ones.

**Contents**

* `MapId`, `EntityId`: names of maps and entities.
* `LightEntry`, `OccluderEntry`: what an answer tells.
* `SpatialIndex`: the two questions.
-/

namespace Penumbra

/-- Names a map, which is a plane of its own. -/
structure MapId where
  number : Nat
deriving DecidableEq, Repr, Inhabited

/-- The map of entities that are nowhere; it is never drawn. -/
def MapId.nowhere : MapId := ⟨0⟩

structure EntityId where
  number : UInt32
deriving DecidableEq, Repr, Inhabited

/-- A light found by a query. -/
structure LightEntry (K : Type) where
  entity : EntityId
  light : Light K
  pose : Pose K
deriving Repr, Inhabited

/-- A wall found by a query. -/
structure OccluderEntry (K : Type) where
  entity : EntityId
  occluder : Occluder K
  pose : Pose K
deriving Repr, Inhabited

def LightEntry.position {K : Type} [Scalar K] (e : LightEntry K) : Vec2 K :=
  e.pose.apply e.light.offset

/-- Answers which lights and which walls that stand overlap an area of a map. -/
structure SpatialIndex (K : Type) where
  lights : MapId → RotatedBox K → List (LightEntry K)
  occluders : MapId → Box2 K → List (OccluderEntry K)

end Penumbra
