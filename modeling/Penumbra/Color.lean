import Penumbra.Numeric.Scalar
import Penumbra.Text.Blank
import Penumbra.Text.Hexadecimal

/-!
# Colours

Linear colours with four channels, and their hexadecimal notation.

**Contents**

* `Color` with its operations; sums are taken channel by channel.
* `Color.ofHex?`: the colour that `#RRGGBB` or `#RRGGBBAA` spells.
-/

namespace Penumbra

structure Color (K : Type) where
  r : K
  g : K
  b : K
  a : K
deriving BEq, Repr, Inhabited

namespace Color

variable {K : Type} [Scalar K]

def black : Color K := ⟨0.0, 0.0, 0.0, 1.0⟩

def white : Color K := ⟨1.0, 1.0, 1.0, 1.0⟩

def transparent : Color K := ⟨0.0, 0.0, 0.0, 0.0⟩

instance : Add (Color K) := ⟨fun c d => ⟨c.r + d.r, c.g + d.g, c.b + d.b, c.a + d.a⟩⟩

def withAlpha (c : Color K) (a : K) : Color K := { c with a }

/-- The colour with red, green and blue multiplied; the opacity stays. -/
def scaled (c : Color K) (factor : K) : Color K :=
  ⟨c.r * factor, c.g * factor, c.b * factor, c.a⟩

def maxChannel (c : Color K) : K := Scalar.maximum (Scalar.maximum c.r c.g) c.b

def channels (c : Color K) : List K := [c.r, c.g, c.b, c.a]

/-- The channel that two digits spell, as a fraction of 255. -/
def channel? (first second : Char) : Option K := do
  return Scalar.ofNat (← Text.readHexByte? [first, second]) / 255.0

/-- Whether a character is one of the 128 of ASCII. -/
def isAscii (c : Char) : Bool := c.toNat < 128

/--
The colour of a hexadecimal notation: blanks at both ends and all number signs in front are left
out, and what remains are the pairs of red, green, blue and, if there are eight characters, opacity.
-/
def ofHex? (hex : String) : Option (Color K) :=
  let digits := (Text.trim hex.toList).dropWhile (· = '#')
  if digits.all isAscii then
    match digits with
    | [r₁, r₂, g₁, g₂, b₁, b₂] => do
      return ⟨← channel? r₁ r₂, ← channel? g₁ g₂, ← channel? b₁ b₂, 1.0⟩
    | [r₁, r₂, g₁, g₂, b₁, b₂, a₁, a₂] => do
      return ⟨← channel? r₁ r₂, ← channel? g₁ g₂, ← channel? b₁ b₂, ← channel? a₁ a₂⟩
    | _ => none
  else none

end Color
end Penumbra
