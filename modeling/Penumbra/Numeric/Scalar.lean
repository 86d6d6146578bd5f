/-!
# Scalars

The geometry and the lighting rules of this library are written once, over any type `K` of scalars.
A scalar has the four operations, a square root, sine and cosine, decidable comparisons, decimal
literals, and two ways down to whole pixels.  Machine numbers are one instance; exact real numbers
are another, for statements about the geometry that are free of rounding.

**Contents**

* `Scalar`: the operations.
* `Scalar.minimum`, `Scalar.maximum`: the smaller and the larger of two, where an operand that
  differs from itself (not a number) is passed over.
* `Scalar.clamp?`: the nearest value in an interval, refused when the interval is not one.
-/

namespace Penumbra

/-- The largest count of pixels: whole pixels are kept in 32 bits. -/
def maxPixels : Nat := 4294967295

/-- A type of numbers to compute geometry and light in. -/
class Scalar (K : Type) extends
    Add K, Sub K, Mul K, Div K, Neg K, LT K, LE K, BEq K, OfScientific K where
  decLt : DecidableRel (fun a b : K => a < b)
  decLe : DecidableRel (fun a b : K => a ≤ b)
  ofNat : Nat → K
  sqrt : K → K
  sin : K → K
  cos : K → K
  abs : K → K
  /-- The largest whole number of pixels not above the value, brought into `0 … maxPixels`. -/
  floorPixels : K → Nat
  /-- The smallest whole number of pixels not below the value, brought into `0 … maxPixels`. -/
  ceilPixels : K → Nat
  /-- A linear order of all scalars, also of those that `≤` does not compare. -/
  totalLe : K → K → Bool

instance decidableLT {K : Type} [Scalar K] : DecidableRel (fun a b : K => a < b) := Scalar.decLt
instance decidableLE {K : Type} [Scalar K] : DecidableRel (fun a b : K => a ≤ b) := Scalar.decLe

namespace Scalar

variable {K : Type} [Scalar K]

/-- A scalar that differs from itself is not a number. -/
def isNumber (a : K) : Bool := a == a

/-- The smaller of two scalars; one that is not a number is passed over. -/
def minimum (a b : K) : K :=
  if isNumber a then (if b < a then b else a) else b

/-- The larger of two scalars; one that is not a number is passed over. -/
def maximum (a b : K) : K :=
  if isNumber a then (if a < b then b else a) else b

/-- The value of `[low, high]` nearest to `a`; `a` itself when it is not a number. -/
def clamp (low high a : K) : K :=
  let raised := if a < low then low else a
  if high < raised then high else raised

/-- As `clamp`, and `none` unless `low ≤ high`, which also fails for a bound that is not a number. -/
def clamp? (low high a : K) : Option K :=
  if low ≤ high then some (clamp low high a) else none

end Scalar
end Penumbra
