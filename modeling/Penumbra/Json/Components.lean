import Penumbra.Frame.MaskAtlas
import Penumbra.Illumination
import Penumbra.Json.Shapes

/-!
# Lights, walls and masks in JSON

Fields of lights and walls that are not given have their usual values.  What a tree has yet to take
notice of, and whether a sensor saw a change, is not written.

**Contents**

* `Light.ofJson?`, `Faces.ofJson?`, `Occluder.ofJson?`, `LightSensor.ofJson?`,
  `MaskPrototype.ofJson?`: what a value spells.
* `Light.toJson`, `Faces.toJson`, `Occluder.toJson`, `LightSensor.toJson`, `MaskPrototype.toJson`:
  what is written.
-/

namespace Penumbra

def Json.ofTextOrNull : Option String → Json
  | some text => ofText text
  | none => null

namespace Light

def fieldNames : List String :=
  ["enabled", "offset", "color", "radius", "energy", "softness", "falloff", "curve_factor",
    "cast_shadows", "rotation", "mask_auto_rotate", "mask", "container_occluded"]

def ofJson? (j : Json) : Option (Light Float32) := do
  let usual : Light Float32 := standard
  let fields ← j.record? fieldNames
  let enabled ← fields.withDefault "enabled" usual.enabled Json.toBool?
  let offset ← fields.withDefault "offset" usual.offset Vec2.ofJson?
  let color ← fields.withDefault "color" usual.color Color.ofJson?
  let radius ← fields.withDefault "radius" usual.radius Json.toSingle?
  let energy ← fields.withDefault "energy" usual.energy Json.toSingle?
  let softness ← fields.withDefault "softness" usual.softness Json.toSingle?
  let falloff ← fields.withDefault "falloff" usual.falloff Json.toSingle?
  let curveFactor ← fields.withDefault "curve_factor" usual.curveFactor Json.toSingle?
  let castShadows ← fields.withDefault "cast_shadows" usual.castShadows Json.toBool?
  let rotation ← fields.withDefault "rotation" usual.rotation Json.toSingle?
  let maskAutoRotate ← fields.withDefault "mask_auto_rotate" usual.maskAutoRotate Json.toBool?
  let mask ← fields.withDefault "mask" usual.mask (Json.toOptional? Json.toText?)
  let containerOccluded ←
    fields.withDefault "container_occluded" usual.containerOccluded Json.toBool?
  return { enabled, offset, color, radius, energy, softness, falloff, curveFactor, castShadows,
           rotation, maskAutoRotate, mask, containerOccluded, updateQueued := false }

def toJson (l : Light Float32) : Json :=
  Json.ofMembers
    [("enabled", .bool l.enabled), ("offset", l.offset.toJson), ("color", l.color.toJson),
      ("radius", Json.ofSingle l.radius), ("energy", Json.ofSingle l.energy),
      ("softness", Json.ofSingle l.softness), ("falloff", Json.ofSingle l.falloff),
      ("curve_factor", Json.ofSingle l.curveFactor), ("cast_shadows", .bool l.castShadows),
      ("rotation", Json.ofSingle l.rotation), ("mask_auto_rotate", .bool l.maskAutoRotate),
      ("mask", Json.ofTextOrNull l.mask), ("container_occluded", .bool l.containerOccluded)]

end Light

namespace Faces

def ofJson? (j : Json) : Option Faces := j.toText?.bind ofText?

def toJson (f : Faces) : Json := Json.ofText f.toText

end Faces

namespace Occluder

def fieldNames : List String := ["bounding_box", "enabled", "occluding"]

def ofJson? (j : Json) : Option (Occluder Float32) := do
  let usual : Occluder Float32 := tile
  let fields ← j.record? fieldNames
  let bounds ← fields.withDefault "bounding_box" usual.bounds Box2.ofJson?
  let enabled ← fields.withDefault "enabled" usual.enabled Json.toBool?
  let blocked ← fields.withDefault "occluding" usual.blocked Faces.ofJson?
  return ⟨bounds, enabled, blocked⟩

def toJson (o : Occluder Float32) : Json :=
  Json.ofMembers
    [("bounding_box", o.bounds.toJson), ("enabled", .bool o.enabled),
      ("occluding", o.blocked.toJson)]

end Occluder

namespace LightSensor

/-- The sensor that a value spells; it has seen no change. -/
def ofJson? (j : Json) : Option (LightSensor Float32) := do
  let fields ← j.record? ["light_level"]
  let level ← fields.required "light_level" Json.toSingle?
  return ⟨level, false⟩

def toJson (s : LightSensor Float32) : Json :=
  Json.ofMembers [("light_level", Json.ofSingle s.level)]

end LightSensor

namespace MaskPrototype

def ofJson? (j : Json) : Option MaskPrototype := do
  let fields ← j.record? ["id", "texture"]
  let id ← fields.required "id" Json.toText?
  let texture ← fields.withDefault "texture" none (Json.toOptional? Json.toText?)
  return ⟨id, texture⟩

def toJson (m : MaskPrototype) : Json :=
  Json.ofMembers [("id", Json.ofText m.id), ("texture", Json.ofTextOrNull m.texture)]

end MaskPrototype
end Penumbra
