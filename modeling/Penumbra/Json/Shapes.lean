import Penumbra.Color
import Penumbra.Geometry.Box2
import Penumbra.Geometry.Pose
import Penumbra.Json.Record

/-!
# Shapes and colours in JSON

Vectors, boxes, poses and colours are records in which every field must be given.

**Contents**

* `Vec2.ofJson?`, `Box2.ofJson?`, `Pose.ofJson?`, `Color.ofJson?`: what a value spells.
* `Vec2.toJson`, `Box2.toJson`, `Pose.toJson`, `Color.toJson`: what is written.
-/

namespace Penumbra

namespace Vec2

def fieldNames : List String := ["x", "y"]

def ofJson? (j : Json) : Option (Vec2 Float32) := do
  let fields ← j.record? fieldNames
  let x ← fields.required "x" Json.toSingle?
  let y ← fields.required "y" Json.toSingle?
  return ⟨x, y⟩

def toJson (v : Vec2 Float32) : Json :=
  Json.ofMembers [("x", Json.ofSingle v.x), ("y", Json.ofSingle v.y)]

end Vec2

namespace Box2

def fieldNames : List String := ["left", "bottom", "right", "top"]

def ofJson? (j : Json) : Option (Box2 Float32) := do
  let fields ← j.record? fieldNames
  let left ← fields.required "left" Json.toSingle?
  let bottom ← fields.required "bottom" Json.toSingle?
  let right ← fields.required "right" Json.toSingle?
  let top ← fields.required "top" Json.toSingle?
  return ⟨left, bottom, right, top⟩

def toJson (b : Box2 Float32) : Json :=
  Json.ofMembers
    [("left", Json.ofSingle b.left), ("bottom", Json.ofSingle b.bottom),
      ("right", Json.ofSingle b.right), ("top", Json.ofSingle b.top)]

end Box2

namespace Pose

def fieldNames : List String := ["position", "rotation"]

def ofJson? (j : Json) : Option (Pose Float32) := do
  let fields ← j.record? fieldNames
  let position ← fields.required "position" Vec2.ofJson?
  let rotation ← fields.required "rotation" Json.toSingle?
  return ⟨position, rotation⟩

def toJson (p : Pose Float32) : Json :=
  Json.ofMembers [("position", p.position.toJson), ("rotation", Json.ofSingle p.rotation)]

end Pose

namespace Color

def fieldNames : List String := ["r", "g", "b", "a"]

def ofJson? (j : Json) : Option (Color Float32) := do
  let fields ← j.record? fieldNames
  let r ← fields.required "r" Json.toSingle?
  let g ← fields.required "g" Json.toSingle?
  let b ← fields.required "b" Json.toSingle?
  let a ← fields.required "a" Json.toSingle?
  return ⟨r, g, b, a⟩

def toJson (c : Color Float32) : Json :=
  Json.ofMembers
    [("r", Json.ofSingle c.r), ("g", Json.ofSingle c.g), ("b", Json.ofSingle c.b),
      ("a", Json.ofSingle c.a)]

end Color
end Penumbra
