import Reconcile.Fields

/-!
# JSON values

The values that rows of a table and entities of a resource are made of. Integers and floating-point
numbers are kept apart, so `2` and `2.0` are different values, and the fields of an object are
sorted by name without repetition, which makes equality of objects independent of the order in
which their fields were written.

* `Json.field?` looks a field up, and `Json.put` sets one.
* `Json.eqv` is the equality of values. Floating-point numbers are compared as numbers, so the two
  zeros are equal.
-/

namespace Reconcile

/-- A JSON value. -/
inductive Json where
  | null
  | bool (value : Bool)
  | int (value : Int)
  | float (value : Float)
  | str (text : String)
  | arr (items : List Json)
  | obj (fields : List (String × Json))
deriving Inhabited, Repr

namespace Json

/-- The object with the given fields, where the last of several fields of one name counts. -/
def ofFields (fields : List (String × Json)) : Json :=
  .obj (Fields.ofPairs fields)

/-- The value of a field. Whatever is not an object has no fields. -/
def field? (j : Json) (name : String) : Option Json :=
  match j with
  | .obj fields => Fields.find? name fields
  | _ => none

/-- The value of a field, or null where there is none. -/
def fieldOrNull (j : Json) (name : String) : Json :=
  (j.field? name).getD .null

/-- Sets a field of an object. Whatever is not an object is left as it is. -/
def put (j : Json) (name : String) (value : Json) : Json :=
  match j with
  | .obj fields => .obj (Fields.put name value fields)
  | other => other

/-- Whether the value is null. -/
def isNull : Json → Bool
  | .null => true
  | _ => false

/-- Whether the value is an object. -/
def isObject : Json → Bool
  | .obj _ => true
  | _ => false

mutual
/-- Whether two values are equal. -/
def eqv : Json → Json → Bool
  | .null, .null => true
  | .bool a, .bool b => a == b
  | .int a, .int b => a == b
  | .float a, .float b => a == b
  | .str a, .str b => a == b
  | .arr a, .arr b => eqvItems a b
  | .obj a, .obj b => eqvFields a b
  | _, _ => false

/-- Whether two lists of values are equal item by item. -/
def eqvItems : List Json → List Json → Bool
  | [], [] => true
  | a :: as, b :: bs => eqv a b && eqvItems as bs
  | _, _ => false

/-- Whether two lists of fields agree in names and values. -/
def eqvFields : List (String × Json) → List (String × Json) → Bool
  | [], [] => true
  | (name, a) :: as, (other, b) :: bs => name == other && eqv a b && eqvFields as bs
  | _, _ => false
end

instance : BEq Json := ⟨eqv⟩

end Json

end Reconcile
