import Penumbra.Numeric.Single

/-!
# Reading decimals

A decimal stands for `digits * 10 ^ exponent`.  It is read in 64-bit arithmetic, as the nearest
number to the digits times, or divided by, the nearest number to the power of ten, and the result
is rounded once more to 32 bits.

**Contents**

* `Decimal.toDouble?`: the 64-bit value, `none` above the range.
* `Decimal.toSingle?`: the 32-bit value; a value above the range of 32 bits is infinite.
-/

namespace Penumbra

/-- The number `digits * 10 ^ exponent`. -/
structure Decimal where
  digits : Nat
  exponent : Int
deriving DecidableEq, Repr, Inhabited

namespace Decimal

open BinaryFormat

/-- The largest power of ten below the range of 64 bits. -/
def largestPower : Nat := 308

def product (a b : Nat × Int) : Option (Nat × Int) :=
  double.nearestDyadic (a.1 * b.1) (a.2 + b.2)

def quotient (a b : Nat × Int) : Option (Nat × Int) :=
  let (den, num) := scaled b.1 a.1 (a.2 - b.2)
  double.nearest num den

/-- The 64-bit number nearest to a power of ten. -/
def powerOfTen (k : Nat) : Option (Nat × Int) := double.nearest (Nat.pow 10 k) 1

/-- A 64-bit magnitude divided by a power of ten, by a first step of `10 ^ 308` if it is larger. -/
def dividedByPower (a : Nat × Int) (k : Nat) : Option (Nat × Int) := do
  if k ≤ largestPower then quotient a (← powerOfTen k)
  else if k ≤ 2 * largestPower then
    let b ← quotient a (← powerOfTen largestPower)
    quotient b (← powerOfTen (k - largestPower))
  else return (0, double.lowest)

/-- The 64-bit value, `none` above the range. -/
def toDouble? (d : Decimal) : Option (Nat × Int) := do
  let a ← double.nearest d.digits 1
  match d.exponent with
  | .ofNat k =>
    if a.1 = 0 then return a
    else if k ≤ largestPower then product a (← powerOfTen k)
    else none
  | .negSucc k => dividedByPower a (k + 1)

/-- The 32-bit value with a sign, `none` above the range of 64 bits. -/
def toSingle? (negative : Bool) (d : Decimal) : Option Float32 :=
  d.toDouble?.map fun (m, e) => Binary32.ofMagnitude negative (single.nearestDyadic m e)

end Decimal
end Penumbra
