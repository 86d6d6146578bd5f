import Penumbra.Numeric.Trigonometry

/-!
# Machine scalars

The 32-bit numbers as scalars.  Arithmetic, square root and comparisons are those of the machine,
each result rounded once; sine, cosine and whole pixels are computed exactly and then rounded.
-/

namespace Penumbra

instance : Scalar Float32 where
  decLt := fun a b => inferInstanceAs (Decidable (a < b))
  decLe := fun a b => inferInstanceAs (Decidable (a ≤ b))
  ofNat := fun n => Binary32.ofRatio false n 1
  sqrt := Float32.sqrt
  sin := Angle.sin
  cos := Angle.cos
  abs := Float32.abs
  floorPixels := Binary32.floorPixels
  ceilPixels := Binary32.ceilPixels
  totalLe := Binary32.totalLe

end Penumbra
