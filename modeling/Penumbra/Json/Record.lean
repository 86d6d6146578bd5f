import Penumbra.Json.Value

/-!
# Records in JSON

A record is written as an object with a member for each field, or as an array of the fields in
their order.

**Contents**

* `Json.record?`: the fields that a value gives.  Members that are no field are ignored, a field
  given twice and an array longer than the record are refused.
* `Fields.required`, `Fields.withDefault`: one field, refused or filled in when it is missing.
-/

namespace Penumbra

/-- The fields of a record that a JSON value gives, each at most once. -/
abbrev Fields := List (String × Json)

namespace Fields

def required {α : Type} (fields : Fields) (name : String) (read : Json → Option α) : Option α :=
  (fields.lookup name).bind read

/-- A field that has a default; a value that is given must be readable. -/
def withDefault {α : Type} (fields : Fields) (name : String) (default : α)
    (read : Json → Option α) : Option α :=
  match fields.lookup name with
  | some value => read value
  | none => some default

end Fields

namespace Json

/-- Keeps the members that are fields; a name that is no text or a field twice is refused. -/
def selectFields? (names : List String) : List (Option String × Json) → Option Fields
  | [] => some []
  | (name, value) :: members => do
    let name ← name
    let fields ← selectFields? names members
    if !names.contains name then return fields
    else if (fields.lookup name).isSome then none
    else return (name, value) :: fields

/-- The fields of a record with these names that a value gives. -/
def record? (names : List String) : Json → Option Fields
  | object members => selectFields? names members
  | array items => if names.length < items.length then none else some (names.zip items)
  | _ => none

end Json
end Penumbra
