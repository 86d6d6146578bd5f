/-!
# Rounding to a binary format

A binary format holds the numbers `m * 2 ^ e` with `m < 2 ^ digits` and an exponent between two
bounds.  `BinaryFormat.nearest` takes a quotient of natural numbers to the nearest number of a
format; a quotient in the middle between two of them goes to the one with the even `m`.

**Contents**

* `roundDiv`: a quotient rounded to a whole number, halves to even.
* `BinaryFormat`, with `BinaryFormat.single` (32 bits) and `BinaryFormat.double` (64 bits).
* `BinaryFormat.nearest`: correct rounding into a format, `none` above its range.
-/

namespace Penumbra

/-- `num / den` rounded to the nearest whole number, a half to the even one. -/
def roundDiv (num den : Nat) : Nat :=
  let quotient := num / den
  let rest := num % den
  if 2 * rest < den then quotient
  else if 2 * rest = den then quotient + quotient % 2
  else quotient + 1

/-- The numbers `m * 2 ^ e` with `m < 2 ^ digits` and `lowest ≤ e ≤ highest`. -/
structure BinaryFormat where
  digits : Nat
  lowest : Int
  highest : Int
deriving DecidableEq, Repr

namespace BinaryFormat

def single : BinaryFormat := ⟨24, -149, 104⟩

def double : BinaryFormat := ⟨53, -1074, 971⟩

/-- Numerator and denominator of `num / (den * 2 ^ e)`. -/
def scaled (num den : Nat) : Int → Nat × Nat
  | .ofNat e => (num, den <<< e)
  | .negSucc e => (num <<< (e + 1), den)

/-- An exponent at which `num / den` has at most one digit more than the format keeps. -/
def firstExponent (f : BinaryFormat) (num den : Nat) : Int :=
  max ((num.log2 : Int) - (den.log2 : Int) - (f.digits : Int)) f.lowest

/-- The exponent of the number of the format nearest to `num / den`. -/
def exponentOf (f : BinaryFormat) (num den : Nat) : Int :=
  let e := f.firstExponent num den
  let (n, d) := scaled num den e
  if 1 <<< f.digits ≤ n / d then e + 1 else e

/--
The significand and exponent of the number of the format nearest to `num / den`, `none` when the
quotient rounds to a number above the format's range.
-/
def nearest (f : BinaryFormat) (num den : Nat) : Option (Nat × Int) :=
  if num = 0 then some (0, f.lowest)
  else
    let e := f.exponentOf num den
    let (n, d) := scaled num den e
    let m := roundDiv n d
    if f.highest < e ∨ (e = f.highest ∧ 1 <<< f.digits ≤ m) then none else some (m, e)

/-- The number of the format nearest to `m * 2 ^ e`. -/
def nearestDyadic (f : BinaryFormat) (m : Nat) (e : Int) : Option (Nat × Int) :=
  let (d, n) := scaled 1 m e
  f.nearest n d

end BinaryFormat
end Penumbra
