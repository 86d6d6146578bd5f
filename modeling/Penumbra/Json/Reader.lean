import Penumbra.Json.Value
import Penumbra.Text.Hexadecimal

/-!
# Reading JSON

The grammar of JSON, without extensions: no comments, no comma behind the last item, nothing but
spaces, tabs and line ends around the values, and no raw control characters in strings.

**Contents**

* `Json.readNumeral?`, `Json.readText?`, `Json.readValue?`: each takes one item off the front of the
  characters and gives it back with the rest.
* `Json.ofString?`: the value of a whole text.
-/

namespace Penumbra.Json

def isBlank (c : Char) : Bool := c = ' ' || c = '\n' || c = '\r' || c = '\t'

def skipBlank (s : List Char) : List Char := s.dropWhile isBlank

def digit? (c : Char) : Option Digit :=
  if c.isDigit then some (Digit.ofNat (c.toNat - '0'.toNat)) else none

/-- Takes digits off the front as long as there are some. -/
def readDigits : List Char → List Digit × List Char
  | [] => ([], [])
  | c :: r =>
    match digit? c with
    | some d => let (ds, rest) := readDigits r; (d :: ds, rest)
    | none => ([], c :: r)

def readDigits₁? (s : List Char) : Option (List Digit × List Char) :=
  match readDigits s with
  | ([], _) => none
  | (ds, rest) => some (ds, rest)

/-- The digits before the point: a zero alone, or digits that do not begin with one. -/
def readWhole? : List Char → Option (List Digit × List Char)
  | '0' :: r => some ([Digit.zero], r)
  | s => readDigits₁? s

/-- The point and the digits behind it, if a point follows. -/
def readFraction? : List Char → Option (List Digit × List Char)
  | '.' :: r => readDigits₁? r
  | s => some ([], s)

def readSigned? : List Char → Option (Int × List Char)
  | '+' :: r => (readDigits₁? r).map fun (ds, rest) => ((Numeral.ofDigits ds : Int), rest)
  | '-' :: r => (readDigits₁? r).map fun (ds, rest) => (-(Numeral.ofDigits ds : Int), rest)
  | s => (readDigits₁? s).map fun (ds, rest) => ((Numeral.ofDigits ds : Int), rest)

/-- The power of ten, if a mark for one follows. -/
def readExponent? : List Char → Option (Option Int × List Char)
  | 'e' :: r => (readSigned? r).map fun (n, rest) => (some n, rest)
  | 'E' :: r => (readSigned? r).map fun (n, rest) => (some n, rest)
  | s => some (none, s)

def readUnsigned? (negative : Bool) (s : List Char) : Option (Numeral × List Char) := do
  let (whole, s) ← readWhole? s
  let (fraction, s) ← readFraction? s
  let (exponent, s) ← readExponent? s
  return (⟨negative, whole, fraction, exponent⟩, s)

def readNumeral? : List Char → Option (Numeral × List Char)
  | '-' :: r => readUnsigned? true r
  | s => readUnsigned? false s

/-- A part of a string literal: a character, or a half of a surrogate pair. -/
inductive Piece where
  | char (c : Char)
  /-- A code unit from `0xD800` to `0xDFFF`, escaped. -/
  | half (unit : Nat)
deriving Repr, Inhabited

def Piece.ofUnit (unit : Nat) : Piece :=
  if 0xD800 ≤ unit && unit < 0xE000 then .half unit else .char (Char.ofNat unit)

/-- The characters of the pieces; halves have to come in pairs, the upper one first. -/
def joinPieces? : List Piece → Option (List Char)
  | [] => some []
  | .char c :: r => (joinPieces? r).map (c :: ·)
  | .half high :: .half low :: r =>
    if high < 0xDC00 && 0xDC00 ≤ low then
      (joinPieces? r).map (Char.ofNat (0x10000 + (high - 0xD800) * 0x400 + (low - 0xDC00)) :: ·)
    else none
  | .half _ :: _ => none

def unit? (a b c d : Char) : Option Nat := do
  let a ← Text.hexDigit? a
  let b ← Text.hexDigit? b
  let c ← Text.hexDigit? c
  let d ← Text.hexDigit? d
  return ((a * 16 + b) * 16 + c) * 16 + d

def shortEscape? : Char → Option Char
  | '"' => some '"'
  | '\\' => some '\\'
  | '/' => some '/'
  | 'b' => some '\x08'
  | 'f' => some '\x0c'
  | 'n' => some '\n'
  | 'r' => some '\r'
  | 't' => some '\t'
  | _ => none

/-- The pieces of a string literal behind its opening quote, up to the closing one. -/
def readPieces? : List Char → Option (List Piece × List Char)
  | [] => none
  | '"' :: r => some ([], r)
  | '\\' :: 'u' :: a :: b :: c :: d :: r => do
    let unit ← unit? a b c d
    let (pieces, rest) ← readPieces? r
    return (Piece.ofUnit unit :: pieces, rest)
  | '\\' :: e :: r => do
    let c ← shortEscape? e
    let (pieces, rest) ← readPieces? r
    return (.char c :: pieces, rest)
  | c :: r =>
    if c.toNat < 0x20 then none
    else do
      let (pieces, rest) ← readPieces? r
      return (.char c :: pieces, rest)

/-- A string literal behind its opening quote, with the text it spells, if it spells one. -/
def readText? (s : List Char) : Option (Option String × List Char) := do
  let (pieces, rest) ← readPieces? s
  return ((joinPieces? pieces).map String.ofList, rest)

mutual

/-- A value; `fuel` bounds the depth of the recursion. -/
def readValue? : Nat → List Char → Option (Json × List Char)
  | 0, _ => none
  | fuel + 1, s =>
    match s with
    | 'n' :: 'u' :: 'l' :: 'l' :: r => some (null, r)
    | 't' :: 'r' :: 'u' :: 'e' :: r => some (bool true, r)
    | 'f' :: 'a' :: 'l' :: 's' :: 'e' :: r => some (bool false, r)
    | '"' :: r => (readText? r).map fun (text, rest) => (string text, rest)
    | '[' :: r =>
      match skipBlank r with
      | ']' :: rest => some (array [], rest)
      | r => (readItems? fuel r).map fun (items, rest) => (array items, rest)
    | '{' :: r =>
      match skipBlank r with
      | '}' :: rest => some (object [], rest)
      | r => (readMembers? fuel r).map fun (members, rest) => (object members, rest)
    | s => (readNumeral? s).map fun (n, rest) => (number n, rest)

/-- The items of an array from the first one to the closing bracket. -/
def readItems? : Nat → List Char → Option (List Json × List Char)
  | 0, _ => none
  | fuel + 1, s => do
    let (item, r) ← readValue? fuel s
    match skipBlank r with
    | ']' :: rest => return ([item], rest)
    | ',' :: r =>
      let (items, rest) ← readItems? fuel (skipBlank r)
      return (item :: items, rest)
    | _ => none

/-- The members of an object from the first one to the closing brace. -/
def readMembers? : Nat → List Char → Option (List (Option String × Json) × List Char)
  | 0, _ => none
  | fuel + 1, s =>
    match s with
    | '"' :: r => do
      let (name, r) ← readText? r
      match skipBlank r with
      | ':' :: r =>
        let (value, r) ← readValue? fuel (skipBlank r)
        match skipBlank r with
        | '}' :: rest => return ([(name, value)], rest)
        | ',' :: r =>
          let (members, rest) ← readMembers? fuel (skipBlank r)
          return ((name, value) :: members, rest)
        | _ => none
      | _ => none
    | _ => none

end

/-- Enough fuel for a text: every two levels of the recursion take a character. -/
def fuelFor (s : List Char) : Nat := 2 * s.length + 2

/-- The value of a text that holds one value and blanks around it. -/
def ofString? (text : String) : Option Json :=
  let s := text.toList
  match readValue? (fuelFor s) (skipBlank s) with
  | some (value, rest) => if (skipBlank rest).isEmpty then some value else none
  | none => none

end Penumbra.Json
