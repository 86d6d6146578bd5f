import Penumbra.Json.Numeral

/-!
# JSON values

A value of a JSON text as it was read, before any field asks what it means.

A string literal may leave one half of a surrogate pair alone.  Such a literal spells no text; it
is kept as `none`, because only a field that asks for its text refuses it.

**Contents**

* `Json`: the values.
* `Json.toNatural?`, `Json.toSingle?`, `Json.toBool?`, `Json.toText?`: what a field may ask for.
* `Json.ofNatural`, `Json.ofSingle`, `Json.ofText`: what a field is written as.
-/

namespace Penumbra

/-- A value of a JSON text. -/
inductive Json where
  | null
  | bool (value : Bool)
  | number (numeral : Numeral)
  /-- A string literal with the text it spells, if it spells one. -/
  | string (text : Option String)
  | array (items : List Json)
  /-- Names with values in braces, in the order of the text; a name may come twice. -/
  | object (members : List (Option String × Json))
deriving Inhabited

namespace Json

/-- The truth value, of a value that is one. -/
def toBool? : Json → Option Bool
  | bool b => some b
  | _ => none

/-- The whole number below `2 ^ 64`, of a value that spells one. -/
def toNatural? : Json → Option Nat
  | number n => n.toNatural?
  | _ => none

/-- The whole number below a bound, of a value that spells one. -/
def toNaturalBelow? (bound : Nat) (j : Json) : Option Nat := do
  let n ← j.toNatural?
  if n < bound then return n else none

/-- The 32-bit number, of a value that spells one. -/
def toSingle? : Json → Option Float32
  | number n => n.toSingle?
  | _ => none

def toText? : Json → Option String
  | string text => text
  | _ => none

/-- What `read` makes of a value, and `null` as nothing. -/
def toOptional? {α : Type} (read : Json → Option α) : Json → Option (Option α)
  | null => some none
  | j => (read j).map some

def ofNatural (n : Nat) : Json := number (Numeral.ofNatural n)

/-- A 32-bit number as a value; one that is not finite has no numeral and is written as `null`. -/
def ofSingle (x : Float32) : Json :=
  match Numeral.ofSingle? x with
  | some n => number n
  | none => null

def ofText (s : String) : Json := string (some s)

def ofMembers (members : List (String × Json)) : Json :=
  object (members.map fun (name, value) => (some name, value))

end Json
end Penumbra
