import Penumbra.Numeric.Binary32

/-!
# Sine and cosine of machine scalars

The angle is written as a whole number of units `2 ^ (-320)`, reduced by the nearest multiple of a
quarter turn, and put into the power series with 240 binary places.  The result is rounded once, so
that it is the 32-bit number nearest to the true value.

**Contents**

* `Angle.reduce`: quarter turns and the remaining angle.
* `Angle.sin`, `Angle.cos`: the rounded values.
-/

namespace Penumbra.Angle

/-- A quarter turn in units of `2 ^ (-320)`. -/
def quarterTurn : Nat :=
  0x1921fb54442d18469898cc51701b839a252049c1114cf98e804177d4c76273644a29410f31c6809bb

/-- One in units of `2 ^ (-240)`. -/
def unit : Nat := 1 <<< 240

/-- Units of a reduced angle, `2 ^ (-320)`, in a unit. -/
def finer : Nat := 1 <<< 80

/-- Number of terms taken of each series; the next one is far below a unit. -/
def seriesTerms : Nat := 36

/--
`term - term * x² / ((k + 1) (k + 2)) + …` in units, where `square` is `x²`: each term is the one
before it times `-x²` over the next two factors of the factorial.
-/
def series (square : Int) : Nat → Nat → Int → Int
  | 0, _, _ => 0
  | n + 1, k, term =>
    term + series square n (k + 2) (-(term * square / unit) / ((k + 1) * (k + 2)))

def smallSin (r : Int) : Int := series (r * r / unit) seriesTerms 1 r

def smallCos (r : Int) : Int := series (r * r / unit) seriesTerms 0 unit

/--
The nearest whole number of quarter turns, modulo a full turn, and what is left of the angle
`m * 2 ^ e` in units; exponents of 32-bit numbers keep the shift in range.
-/
def reduce (m : Nat) (e : Int) : Nat × Int :=
  let angle := m <<< (e + 320).toNat
  let turns := (angle + quarterTurn / 2) / quarterTurn
  (turns % 4, ((angle : Int) - (turns * quarterTurn : Nat)) / (finer : Nat))

def ofUnits (value : Int) : Float32 := Binary32.ofRatio (value < 0) value.natAbs unit

/-- What is not a number, the sine and cosine of an infinite angle. -/
def undefined : Float32 := 0.0 / 0.0

def sin (x : Float32) : Float32 :=
  match Binary32.magnitude? x with
  | none => undefined
  | some (m, e) =>
    if m = 0 then x
    else
      let (turns, rest) := reduce m e
      let value :=
        match turns with
        | 0 => smallSin rest
        | 1 => smallCos rest
        | 2 => -smallSin rest
        | _ => -smallCos rest
      ofUnits (if Binary32.isNegative x then -value else value)

def cos (x : Float32) : Float32 :=
  match Binary32.magnitude? x with
  | none => undefined
  | some (m, e) =>
    let (turns, rest) := reduce m e
    ofUnits <|
      match turns with
      | 0 => smallCos rest
      | 1 => -smallSin rest
      | 2 => -smallCos rest
      | _ => smallSin rest

end Penumbra.Angle
