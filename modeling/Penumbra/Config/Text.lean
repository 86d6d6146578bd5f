import Penumbra.Config.Basic
import Penumbra.Failure
import Penumbra.Json.Printer
import Penumbra.Json.Reader
import Penumbra.Json.Record

/-!
# Settings as text

Settings are written as a JSON record.  What a user leaves out has its usual value, and what is no
setting is ignored.

**Contents**

* `Config.ofJson?`, `Config.toJson`: the record.
* `Config.ofText`, `Config.toText`: the text of a settings file.
-/

namespace Penumbra.Config

def fieldNames : List String :=
  ["enabled", "draw_lighting", "draw_shadows", "max_light_count", "max_shadowcasting_lights",
    "max_occluder_count", "light_resolution_scale", "soft_shadows", "light_blur",
    "light_blur_factor", "fov_color", "mask_atlas_max_size", "light_batch_quads"]

/-- Sizes in pixels are whole numbers below this bound. -/
def pixelBound : Nat := maxPixels + 1

def ofJson? (j : Json) : Option (Config Float32) := do
  let usual : Config Float32 := standard
  let fields ← j.record? fieldNames
  let enabled ← fields.withDefault "enabled" usual.enabled Json.toBool?
  let drawLighting ← fields.withDefault "draw_lighting" usual.drawLighting Json.toBool?
  let drawShadows ← fields.withDefault "draw_shadows" usual.drawShadows Json.toBool?
  let maxLightCount ← fields.withDefault "max_light_count" usual.maxLightCount Json.toNatural?
  let maxShadowCasters ←
    fields.withDefault "max_shadowcasting_lights" usual.maxShadowCasters Json.toNatural?
  let maxOccluderCount ←
    fields.withDefault "max_occluder_count" usual.maxOccluderCount Json.toNatural?
  let resolutionScale ←
    fields.withDefault "light_resolution_scale" usual.resolutionScale Json.toSingle?
  let softShadows ← fields.withDefault "soft_shadows" usual.softShadows Json.toBool?
  let lightBlur ← fields.withDefault "light_blur" usual.lightBlur Json.toBool?
  let lightBlurFactor ← fields.withDefault "light_blur_factor" usual.lightBlurFactor Json.toSingle?
  let fovColor ← fields.withDefault "fov_color" usual.fovColor Json.toText?
  let atlasMaxSize ←
    fields.withDefault "mask_atlas_max_size" usual.atlasMaxSize (Json.toNaturalBelow? pixelBound)
  let batchQuads ← fields.withDefault "light_batch_quads" usual.batchQuads Json.toNatural?
  return { enabled, drawLighting, drawShadows, maxLightCount, maxShadowCasters, maxOccluderCount,
           resolutionScale, softShadows, lightBlur, lightBlurFactor, fovColor, atlasMaxSize,
           batchQuads }

def toJson (c : Config Float32) : Json :=
  Json.ofMembers
    [("enabled", .bool c.enabled), ("draw_lighting", .bool c.drawLighting),
      ("draw_shadows", .bool c.drawShadows), ("max_light_count", Json.ofNatural c.maxLightCount),
      ("max_shadowcasting_lights", Json.ofNatural c.maxShadowCasters),
      ("max_occluder_count", Json.ofNatural c.maxOccluderCount),
      ("light_resolution_scale", Json.ofSingle c.resolutionScale),
      ("soft_shadows", .bool c.softShadows), ("light_blur", .bool c.lightBlur),
      ("light_blur_factor", Json.ofSingle c.lightBlurFactor), ("fov_color", Json.ofText c.fovColor),
      ("mask_atlas_max_size", Json.ofNatural c.atlasMaxSize),
      ("light_batch_quads", Json.ofNatural c.batchQuads)]

def ofText (text : String) : Except LightingError (Config Float32) :=
  match (Json.ofString? text).bind ofJson? with
  | some config => .ok config
  | none => .error .configInvalid

/-- The text of the settings, a line for each of them. -/
def toText (c : Config Float32) : String := c.toJson.pretty

end Penumbra.Config
