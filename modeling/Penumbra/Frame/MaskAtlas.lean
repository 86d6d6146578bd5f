import Penumbra.Geometry.Box2
import Penumbra.Memory

/-!
# The mask atlas

Light masks are put side by side into one picture.  Its first pixel is white, for lights without a
mask; each mask stands at the upper edge, right of the ones before it.

**Contents**

* `Image`, `MaskPrototype`.
* `MaskAtlas.build`: the atlas of the masks that load, refused when it is too wide.
* `MaskAtlas.uvBox`: the part of the atlas that a light uses.
-/

namespace Penumbra

/-- A pixel of red, green, blue and opacity. -/
structure Pixel where
  r : UInt8
  g : UInt8
  b : UInt8
  a : UInt8
deriving DecidableEq, Repr, Inhabited

def Pixel.bytes : Nat := 4

def Pixel.white : Pixel := ⟨255, 255, 255, 255⟩

def Pixel.clear : Pixel := ⟨0, 0, 0, 0⟩

/-- A picture; columns are counted from the left and rows from the top. -/
structure Image where
  width : Nat
  height : Nat
  /-- The pixel of a column and a row; outside the picture it means nothing. -/
  pixel : Nat → Nat → Pixel
deriving Inhabited

def Image.pixels (image : Image) : List Pixel :=
  (List.range image.height).flatMap fun y => (List.range image.width).map fun x => image.pixel x y

/-- A mask by its name, and where its picture is found. -/
structure MaskPrototype where
  id : String
  /-- Where the picture is found, if the mask has one. -/
  texture : Option String
deriving DecidableEq, Repr, Inhabited

structure PlacedMask where
  id : String
  left : Nat
  image : Image
deriving Inhabited

def placeMasks : Nat → List (String × Image) → List PlacedMask
  | _, [] => []
  | left, (id, image) :: rest => ⟨id, left, image⟩ :: placeMasks (left + image.width) rest

/-- Whether a pixel of the atlas belongs to a mask. -/
def PlacedMask.covers (m : PlacedMask) (x y : Nat) : Bool :=
  m.left ≤ x && x < m.left + m.image.width && y < m.image.height

/-- The masks in one picture, and the part of it that each name stands for. -/
structure MaskAtlas (K : Type) where
  image : Image
  /-- The parts by name; of several with a name the last one counts. -/
  boxes : List (String × Box2 K)
  white : Box2 K
deriving Inhabited

namespace MaskAtlas

variable {K : Type} [Scalar K]

def loadAll (prototypes : List MaskPrototype) (load : String → Option Image) :
    List (String × Image) :=
  prototypes.filterMap fun p => do
    let texture ← p.texture
    let image ← load texture
    return (p.id, image)

/-- Width of the atlas: a white pixel and all pictures. -/
def stripWidth (loaded : List (String × Image)) : Nat :=
  loaded.foldl (fun width (_, image) => width + image.width) 1

/-- Height of the atlas: the highest picture, at least one. -/
def stripHeight (loaded : List (String × Image)) : Nat :=
  (loaded.map fun (_, image) => image.height).foldl max 1

/-- A part of a picture in texture coordinates, which run upwards. -/
def uvOf (width height left top right bottom : Nat) : Box2 K :=
  let w : K := Scalar.ofNat width
  let h : K := Scalar.ofNat height
  ⟨Scalar.ofNat left / w, (h - Scalar.ofNat bottom) / h, Scalar.ofNat right / w,
    (h - Scalar.ofNat top) / h⟩

/-- The picture with a white first pixel and some masks. -/
def paint (width height : Nat) (masks : List PlacedMask) : Image where
  width := width
  height := height
  pixel x y :=
    if x = 0 && y = 0 then Pixel.white
    else
      match masks.find? (·.covers x y) with
      | some m => m.image.pixel (x - m.left) y
      | none => Pixel.clear

def ofMasks (loaded : List (String × Image)) : MaskAtlas K :=
  let width := stripWidth loaded
  let height := stripHeight loaded
  let masks := placeMasks 1 loaded
  { image := paint width height masks
    boxes := masks.map fun m =>
      (m.id, uvOf width height m.left 0 (m.left + m.image.width) m.image.height)
    white := uvOf width height 0 0 1 1 }

/--
The atlas of the masks that load; refused when it would be wider than a texture may be.  Columns are
counted in 32 bits, and memory has to have room for the pixels.
-/
def build (prototypes : List MaskPrototype) (load : String → Option Image) (maxSize : Nat) :
    Except Failure (MaskAtlas K) :=
  let loaded := loadAll prototypes load
  let width := stripWidth loaded
  if maxPixels < width then .error (.fault .sizeExceeded)
  else if maxSize < width then .error (.error (.atlasTooWide width maxSize))
  else
    match Memory.reserve (width * stripHeight loaded) Pixel.bytes with
    | .error f => .error (.fault f)
    | .ok () => .ok (ofMasks loaded)

def empty : MaskAtlas K where
  image := ⟨1, 1, fun _ _ => Pixel.white⟩
  boxes := []
  white := ⟨0.0, 0.0, 1.0, 1.0⟩

/-- The part of the atlas for a mask; no mask and an unknown one get the white pixel. -/
def uvBox (atlas : MaskAtlas K) (mask : Option String) : Box2 K :=
  (mask.bind fun id => atlas.boxes.reverse.lookup id).getD atlas.white

end MaskAtlas
end Penumbra
