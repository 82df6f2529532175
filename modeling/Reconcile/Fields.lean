/-!
# Sorted fields

Named values in the order of their names, each name once. Setting a field keeps the order, so two
collections with the same fields are equal as lists.

* **Look-up after a write**: `Fields.find?_put_self` and `Fields.find?_put_of_ne`.
-/

namespace Reconcile

/-- Named values, sorted by name. -/
abbrev Fields (α : Type) := List (String × α)

namespace Fields

variable {α : Type}

/-- The value of a field. -/
def find? (name : String) : Fields α → Option α
  | [] => none
  | (other, value) :: rest => if name = other then some value else find? name rest

/-- Whether there is a field of the name. -/
def has (name : String) (fields : Fields α) : Bool :=
  (fields.find? name).isSome

/-- Sets a field, replacing the value it had. -/
def put (name : String) (value : α) : Fields α → Fields α
  | [] => [(name, value)]
  | (other, old) :: rest =>
    if name = other then (name, value) :: rest
    else if name < other then (name, value) :: (other, old) :: rest
    else (other, old) :: put name value rest

/-- The fields of a list of pairs, where the last of several pairs of one name counts. -/
def ofPairs (pairs : List (String × α)) : Fields α :=
  pairs.foldl (fun fields (name, value) => fields.put name value) []

/-- The names of the fields, in order. -/
def names (fields : Fields α) : List String :=
  fields.map Prod.fst

/-- A field that was set has the value it was set to. -/
@[simp]
theorem find?_put_self (name : String) (value : α) (fields : Fields α) :
    (fields.put name value).find? name = some value := by
  induction fields with
  | nil => simp [put, find?]
  | cons field rest ih =>
    obtain ⟨other, old⟩ := field
    unfold put
    split
    · simp [find?]
    · split
      · simp [find?]
      · rename_i hne _
        simp [find?, hne, ih]

/-- Setting a field leaves the other fields as they were. -/
theorem find?_put_of_ne {name other : String} (hne : other ≠ name) (value : α)
    (fields : Fields α) : (fields.put name value).find? other = fields.find? other := by
  induction fields with
  | nil => simp [put, find?, hne]
  | cons field rest ih =>
    obtain ⟨third, old⟩ := field
    unfold put
    split
    · rename_i heq
      subst heq
      simp [find?, hne]
    · split
      · simp [find?, hne]
      · simp [find?, ih]

end Fields

end Reconcile
