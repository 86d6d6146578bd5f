import Penumbra.Geometry.Box2
import Penumbra.Text.Blank
import Penumbra.Text.Hexadecimal

/-!
# Occluders

Walls are boxes that block light and sight.  A face that touches a neighbouring wall is blocked.

**Contents**

* `Side`, `Faces`: the sides of a box and sets of them.  A set is a byte, and bits that stand for no
  side are kept.
* `Faces.ofText?`, `Faces.toText`: names joined by bars, `0x` numerals for bits without a name.
* `Occluder` and `Occluder.tile`.
-/

namespace Penumbra

inductive Side where
  | north
  | east
  | south
  | west
deriving DecidableEq, Repr, Inhabited

namespace Side

def all : List Side := [north, east, south, west]

def bit : Side → Nat
  | north => 1
  | east => 2
  | south => 4
  | west => 8

def name : Side → List Char
  | north => ['N', 'O', 'R', 'T', 'H']
  | east => ['E', 'A', 'S', 'T']
  | south => ['S', 'O', 'U', 'T', 'H']
  | west => ['W', 'E', 'S', 'T']

end Side

/-- A set of sides, kept as a byte. -/
structure Faces where
  /-- The bits of the sides, and perhaps bits of no side. -/
  bits : UInt8
deriving DecidableEq, Repr, Inhabited

namespace Faces

def empty : Faces := ⟨0⟩

def ofSide (s : Side) : Faces := ⟨UInt8.ofNat s.bit⟩

def all : Faces := ⟨15⟩

def union (a b : Faces) : Faces := ⟨a.bits ||| b.bits⟩

def contains (f : Faces) (s : Side) : Bool := f.bits &&& UInt8.ofNat s.bit == UInt8.ofNat s.bit

def ofName? (name : List Char) : Option Faces :=
  if name = ['A', 'L', 'L'] then some all
  else (Side.all.find? fun s => s.name = name).map ofSide

/-- The set that one part of a text stands for: a numeral behind `0x`, or a name. -/
def ofPart? : List Char → Option Faces
  | '0' :: 'x' :: digits => (Text.readHexByte? digits).map fun n => ⟨UInt8.ofNat n⟩
  | name => ofName? name

def splitBars : List Char → List (List Char)
  | [] => [[]]
  | c :: r =>
    if c = '|' then [] :: splitBars r
    else
      match splitBars r with
      | [] => [[c]]
      | part :: parts => (c :: part) :: parts

/-- The set that a text spells: a blank text is no side, otherwise every part has to stand for one. -/
def ofText? (text : String) : Option Faces :=
  let s := text.toList
  if (Text.trim s).isEmpty then some empty
  else
    (splitBars s).foldlM (fun faces part => (ofPart? (Text.trim part)).map faces.union) empty

def unnamed (f : Faces) : Nat := f.bits.toNat / 16 * 16

/-- The names of the sides and the other bits, joined by bars with blanks around them. -/
def toText (f : Faces) : String :=
  let names := (Side.all.filter f.contains).map Side.name
  let rest := if f.unnamed = 0 then [] else [['0', 'x'] ++ Text.hexByte f.unnamed]
  String.ofList (List.intercalate [' ', '|', ' '] (names ++ rest))

end Faces

/-- A wall that blocks light and sight. -/
structure Occluder (K : Type) where
  bounds : Box2 K
  enabled : Bool
  blocked : Faces
deriving BEq, Repr, Inhabited

namespace Occluder

variable {K : Type} [Scalar K]

def ofBox (bounds : Box2 K) : Occluder K := ⟨bounds, true, Faces.empty⟩

/-- The usual wall: a unit square around the entity. -/
def tile : Occluder K := ofBox ⟨-0.5, -0.5, 0.5, 0.5⟩

end Occluder
end Penumbra
