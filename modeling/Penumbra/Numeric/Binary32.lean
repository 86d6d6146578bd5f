import Penumbra.Numeric.Rounding
import Penumbra.Numeric.Scalar

/-!
# Machine scalars: the parts of a 32-bit number

A 32-bit number is a sign with a magnitude `m * 2 ^ e`, an infinity, or not a number.  This module
takes a number apart and puts one together, and reads whole pixels and the total order off the
parts.

**Contents**

* `Binary32.magnitude?`, `Binary32.ofMagnitude`: from a number to its parts and back.
* `Binary32.floorPixels`, `Binary32.ceilPixels`: whole pixels next to a number.
* `Binary32.totalLe`: negative numbers below positive ones, what is not a number above all.
-/

namespace Penumbra.Binary32

def fractionRange : Nat := 8388608

def exponentRange : Nat := 256

def highestField : Nat := 255

def signBit : Nat := 2147483648

def isNegative (x : Float32) : Bool := signBit ≤ x.toBits.toNat

def exponentField (x : Float32) : Nat := x.toBits.toNat / fractionRange % exponentRange

def fractionField (x : Float32) : Nat := x.toBits.toNat % fractionRange

/-- Significand and exponent of the absolute value, `none` unless the number is finite. -/
def magnitude? (x : Float32) : Option (Nat × Int) :=
  let field := exponentField x
  if field = highestField then none
  else if field = 0 then some (fractionField x, -149)
  else some (fractionField x + fractionRange, (field : Int) - 150)

def isInfinite (x : Float32) : Bool := exponentField x = highestField && fractionField x = 0

/-- The number with a sign and a magnitude of the 32-bit format; `none` stands for infinity. -/
def ofMagnitude (negative : Bool) (magnitude : Option (Nat × Int)) : Float32 :=
  let bits : Nat :=
    match magnitude with
    | some (m, e) => (e + 149).toNat * fractionRange + m
    | none => highestField * fractionRange
  Float32.ofBits (UInt32.ofNat (if negative then bits + signBit else bits))

/-- The 32-bit number nearest to the quotient of two natural numbers, with a sign. -/
def ofRatio (negative : Bool) (num den : Nat) : Float32 :=
  ofMagnitude negative (BinaryFormat.single.nearest num den)

/-- The whole pixels at or below a number; what is not a number counts as none. -/
def floorPixels (x : Float32) : Nat :=
  match magnitude? x with
  | some (m, e) =>
    if isNegative x then 0
    else
      let (num, den) := BinaryFormat.scaled m 1 (-e)
      min (num / den) maxPixels
  | none => if isInfinite x && !isNegative x then maxPixels else 0

/-- The whole pixels at or above a number; what is not a number counts as none. -/
def ceilPixels (x : Float32) : Nat :=
  match magnitude? x with
  | some (m, e) =>
    if isNegative x then 0
    else
      let (num, den) := BinaryFormat.scaled m 1 (-e)
      min ((num + den - 1) / den) maxPixels
  | none => if isInfinite x && !isNegative x then maxPixels else 0

def totalKey (x : Float32) : Int :=
  let bits := x.toBits.toNat
  if isNegative x then -((bits - signBit : Nat) : Int) - 1 else (bits : Int)

/-- Total order: `-∞`, negative numbers, `-0`, `0`, positive numbers, `∞`, not a number. -/
def totalLe (x y : Float32) : Bool := totalKey x ≤ totalKey y

end Penumbra.Binary32
