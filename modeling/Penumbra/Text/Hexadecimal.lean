/-!
# Hexadecimal numerals

Whole numbers to base sixteen, with digits of either case and an optional plus sign in front.
-/

namespace Penumbra.Text

/-- The value of a digit to base sixteen, of either case. -/
def hexDigit? (c : Char) : Option Nat :=
  if c.isDigit then some (c.toNat - '0'.toNat)
  else if 'a' ≤ c && c ≤ 'f' then some (c.toNat - 'a'.toNat + 10)
  else if 'A' ≤ c && c ≤ 'F' then some (c.toNat - 'A'.toNat + 10)
  else none

/-- The lower-case character of a digit to base sixteen. -/
def hexChar (n : Nat) : Char :=
  if n < 10 then Char.ofNat ('0'.toNat + n) else Char.ofNat ('a'.toNat + (n - 10))

/-- The number that digits spell behind a value already read. -/
def hexDigits? (value : Nat) : List Char → Option Nat
  | [] => some value
  | c :: r => do hexDigits? (value * 16 + (← hexDigit? c)) r

/-- The number behind an optional plus sign; there is at least one digit. -/
def readHex? : List Char → Option Nat
  | [] => none
  | ['+'] => none
  | '+' :: r => hexDigits? 0 r
  | s => hexDigits? 0 s

def readHexByte? (s : List Char) : Option Nat := do
  let n ← readHex? s
  if n < 256 then return n else none

/-- The digits of a byte, without a zero in front. -/
def hexByte (n : Nat) : List Char := if n < 16 then [hexChar n] else [hexChar (n / 16), hexChar (n % 16)]

end Penumbra.Text
