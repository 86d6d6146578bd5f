import Penumbra.Numeric.Decimal

/-!
# Numerals

A numeral of a JSON text is kept as it is written: its sign, the digits before and after the point,
and the power of ten.  What number it stands for is asked later, by the field that takes it.

**Contents**

* `Numeral.toNatural?`: a whole number, for fields that count.
* `Numeral.toSingle?`: a 32-bit number, for fields that measure.
* `Numeral.ofNatural`, `Numeral.ofSingle?`: how numbers are written.  A 32-bit number takes the
  fewest digits that are read back as the same number.
-/

namespace Penumbra

abbrev Digit := Fin 10

def Digit.ofNat (n : Nat) : Digit := ⟨n % 10, Nat.mod_lt n (Nat.succ_pos 9)⟩

def Digit.zero : Digit := Digit.ofNat 0

/-- A numeral as it is written. -/
structure Numeral where
  negative : Bool
  whole : List Digit
  /-- The digits after the point; without any there is no point. -/
  fraction : List Digit
  exponent : Option Int
deriving DecidableEq, Repr, Inhabited

namespace Numeral

def ofDigits (ds : List Digit) : Nat := ds.foldl (fun n d => n * 10 + d.val) 0

/-- The decimal digits of a whole number, from the first one on. -/
def digitsOf (n : Nat) : List Digit :=
  if n < 10 then [Digit.ofNat n] else digitsOf (n / 10) ++ [Digit.ofNat n]
termination_by n
decreasing_by omega

/-- Whether the numeral has neither a point nor a power of ten. -/
def isWhole (n : Numeral) : Bool := n.fraction.isEmpty && n.exponent.isNone

/-- Whole numbers are read exactly when they are below this bound, `2 ^ 64`. -/
def wordBound : Nat := 18446744073709551616

/-- The whole number below `2 ^ 64` that the numeral spells, if it is one without a sign. -/
def toNatural? (n : Numeral) : Option Nat :=
  if n.isWhole && !n.negative && ofDigits n.whole < wordBound then some (ofDigits n.whole) else none

/-- Digits collected so far: while they fit into 64 bits, they are `open`. -/
structure Collected where
  value : Nat
  exponent : Int
  isOpen : Bool
deriving Repr

/-- Appends a digit before the point; one that does not fit only counts as a place. -/
def Collected.whole (c : Collected) (d : Digit) : Collected :=
  let value := c.value * 10 + d.val
  if c.isOpen && value < wordBound then { c with value }
  else { c with exponent := c.exponent + 1, isOpen := false }

/-- Appends a digit after the point; one that does not fit is dropped, with all that follow. -/
def Collected.fraction (c : Collected) (d : Digit) : Collected :=
  let value := c.value * 10 + d.val
  if c.isOpen && value < wordBound then { c with value, exponent := c.exponent - 1 }
  else { c with isOpen := false }

def toDecimal (n : Numeral) : Decimal :=
  let whole := n.whole.foldl Collected.whole ⟨0, 0, true⟩
  let all := n.fraction.foldl Collected.fraction { whole with isOpen := true }
  ⟨all.value, all.exponent + n.exponent.getD 0⟩

/-- Whether the numeral spells a whole number that is rounded to 32 bits in one step. -/
def isWord (n : Numeral) : Bool :=
  let value := ofDigits n.whole
  n.isWhole && (if n.negative then 0 < value && value ≤ wordBound / 2 else value < wordBound)

/-- The 32-bit number that the numeral stands for, `none` above the range of 64-bit numbers. -/
def toSingle? (n : Numeral) : Option Float32 :=
  if n.isWord then some (Binary32.ofRatio n.negative (ofDigits n.whole) 1)
  else n.toDecimal.toSingle? n.negative

def ofNatural (n : Nat) : Numeral := ⟨false, digitsOf n, [], none⟩

/-- How a decimal is laid out. -/
structure Layout where
  /-- The lowest place of a first digit that is written without a power of ten. -/
  lowestPlain : Int
  /-- The highest place of a first digit that is written without a power of ten. -/
  highestPlain : Int
deriving Repr

/-- A first digit from the millionths up to the trillions is written plainly. -/
def plainLayout : Layout := ⟨-6, 12⟩

/--
The numeral of a decimal.  Written plainly it has at least one digit on each side of the point;
otherwise one digit stands before the point, and a power of ten behind.
-/
def ofDecimal (layout : Layout) (negative : Bool) (d : Decimal) : Numeral :=
  let digits := digitsOf d.digits
  let first := d.exponent + (digits.length - 1 : Nat)
  if first < layout.lowestPlain ∨ layout.highestPlain < first then
    ⟨negative, digits.take 1, digits.drop 1, some first⟩
  else if 0 ≤ d.exponent then
    ⟨negative, digits ++ List.replicate d.exponent.toNat Digit.zero, [Digit.zero], none⟩
  else if 0 ≤ first then
    ⟨negative, digits.take (first.toNat + 1), digits.drop (first.toNat + 1), none⟩
  else
    ⟨negative, [Digit.zero], List.replicate (-first - 1).toNat Digit.zero ++ digits, none⟩

/-- Powers of ten from the coarsest grid of decimals to one finer than all 32-bit numbers. -/
def gridExponents : List Int := (List.range 100).map fun k : Nat => (39 : Int) - k

/-- The two points of the grid of multiples of `10 ^ exponent` around `num / den`, nearer first. -/
def neighbours (num den : Nat) (exponent : Int) : List Decimal :=
  let (n, d) :=
    match exponent with
    | .ofNat e => (num, den * Nat.pow 10 e)
    | .negSucc e => (num * Nat.pow 10 (e + 1), den)
  let below : Decimal := ⟨n / d, exponent⟩
  let above : Decimal := ⟨n / d + 1, exponent⟩
  if roundDiv n d = n / d then [below, above] else [above, below]

/--
The numeral of a 32-bit number, `none` unless the number is finite: the point of the coarsest grid
whose numeral is read back as the number.
-/
def ofSingle? (x : Float32) : Option Numeral := do
  let (m, e) ← Binary32.magnitude? x
  let negative := Binary32.isNegative x
  if m = 0 then return ofDecimal plainLayout negative ⟨0, 0⟩
  let (num, den) := BinaryFormat.scaled m 1 (-e)
  gridExponents.findSome? fun j =>
    ((neighbours num den j).map (ofDecimal plainLayout negative)).find? fun n =>
      n.toSingle? = some x

end Numeral
end Penumbra
