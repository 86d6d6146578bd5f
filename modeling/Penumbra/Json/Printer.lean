import Penumbra.Json.Value
import Penumbra.Text.Hexadecimal

/-!
# Writing JSON

**Contents**

* `Json.compact`: everything on one line without blanks.
* `Json.pretty`: one member or item on a line, two more spaces for each level, a space behind the
  colon.
-/

namespace Penumbra.Json

def digitChar (d : Digit) : Char := Char.ofNat ('0'.toNat + d.val)

def digitChars (ds : List Digit) : List Char := ds.map digitChar

/-- The power of ten with its mark; the sign is always written. -/
def exponentChars : Option Int → List Char
  | none => []
  | some e =>
    'e' :: (if e < 0 then '-' else '+') :: digitChars (Numeral.digitsOf e.natAbs)

def numeralChars (n : Numeral) : List Char :=
  (if n.negative then ['-'] else []) ++ digitChars n.whole ++
    (if n.fraction.isEmpty then [] else '.' :: digitChars n.fraction) ++ exponentChars n.exponent

/-- A character inside a string: quotes, backslashes and control characters are escaped. -/
def escapedChar (c : Char) : List Char :=
  if c = '"' then ['\\', '"']
  else if c = '\\' then ['\\', '\\']
  else if c = '\x08' then ['\\', 'b']
  else if c = '\t' then ['\\', 't']
  else if c = '\n' then ['\\', 'n']
  else if c = '\x0c' then ['\\', 'f']
  else if c = '\r' then ['\\', 'r']
  else if c.toNat < 0x20 then
    ['\\', 'u', '0', '0', Text.hexChar (c.toNat / 16), Text.hexChar (c.toNat % 16)]
  else [c]

/-- A string literal; one that spells no text is left empty. -/
def textChars (text : Option String) : List Char :=
  '"' :: ((text.getD "").toList.flatMap escapedChar ++ ['"'])

/-- How a writer separates what it writes. -/
structure Style where
  lineBreak : Nat → List Char
  colon : List Char

def compactStyle : Style := ⟨fun _ => [], [':']⟩

/-- A line for each member and two spaces for each level. -/
def prettyStyle : Style := ⟨fun level => '\n' :: List.replicate (2 * level) ' ', [':', ' ']⟩

mutual

/-- The characters of a value inside `level` arrays and objects. -/
def chars (style : Style) (level : Nat) : Json → List Char
  | null => ['n', 'u', 'l', 'l']
  | bool true => ['t', 'r', 'u', 'e']
  | bool false => ['f', 'a', 'l', 's', 'e']
  | number n => numeralChars n
  | string text => textChars text
  | array [] => ['[', ']']
  | array (item :: items) =>
    '[' :: (style.lineBreak (level + 1) ++ chars style (level + 1) item ++
      itemChars style (level + 1) items ++ style.lineBreak level ++ [']'])
  | object [] => ['{', '}']
  | object ((name, value) :: members) =>
    '{' :: (style.lineBreak (level + 1) ++ textChars name ++ style.colon ++
      chars style (level + 1) value ++ memberChars style (level + 1) members ++
      style.lineBreak level ++ ['}'])

/-- The items behind the first one, each with the comma in front. -/
def itemChars (style : Style) (level : Nat) : List Json → List Char
  | [] => []
  | item :: items =>
    ',' :: (style.lineBreak level ++ chars style level item ++ itemChars style level items)

/-- The members behind the first one, each with the comma in front. -/
def memberChars (style : Style) (level : Nat) : List (Option String × Json) → List Char
  | [] => []
  | (name, value) :: members =>
    ',' :: (style.lineBreak level ++ textChars name ++ style.colon ++ chars style level value ++
      memberChars style level members)

end

def compact (j : Json) : String := String.ofList (chars compactStyle 0 j)

/-- The value with a line for each member and item. -/
def pretty (j : Json) : String := String.ofList (chars prettyStyle 0 j)

end Penumbra.Json
