import Reconcile.Json.Basic

/-!
# Sides, operations and the choice between update and replacement

A resource has two sides: the declared state, kept in tables, and the live state that the provider
reports. On each side there are four operations. When the two sides disagree, a resource is
brought in line by an update in place or by a replacement.

All three are written as words in lower case, both in messages and in JSON, and read back from
them. In JSON a word `w` may also be given as the object with the single field `w` of value null.
-/

namespace Reconcile

/-- Which half of the reconciliation a call addresses. -/
inductive Side where
  /-- The declared state, kept in tables. -/
  | db
  /-- The live state, as the provider reports it. -/
  | cloud
deriving DecidableEq, Repr, Inhabited

/-- What is done to entities on one side. -/
inductive Operation where
  | create
  | read
  | update
  | delete
deriving DecidableEq, Repr, Inhabited

/-- How a difference between two entities is resolved. -/
inductive UpdateStrategy where
  /-- The entity is changed in place. -/
  | update
  /-- The entity is deleted and created anew. -/
  | replace
deriving DecidableEq, Repr, Inhabited

/-- The text that a JSON value gives as a word. -/
def wordOfJson? : Json → Option String
  | .str s => some s
  | .obj [(s, .null)] => some s
  | _ => none

/-- A word with its first letter in upper case. -/
def capitalized (word : String) : String :=
  word.capitalize

namespace Side

/-- The other half. -/
def other : Side → Side
  | db => cloud
  | cloud => db

/-- The word for a side. -/
def text : Side → String
  | db => "db"
  | cloud => "cloud"

/-- The side that a word names. -/
def ofText? : String → Option Side
  | "db" => some db
  | "cloud" => some cloud
  | _ => none

/-- The side that a JSON value names. -/
def ofJson? (j : Json) : Option Side :=
  (wordOfJson? j).bind ofText?

/-- Turning to the other half twice leads back. -/
theorem other_other (s : Side) : s.other.other = s := by
  cases s <;> rfl

/-- A side is read back from its word. -/
theorem ofText?_text (s : Side) : ofText? s.text = some s := by
  cases s <;> rfl

end Side

namespace Operation

/-- The word for an operation. -/
def text : Operation → String
  | create => "create"
  | read => "read"
  | update => "update"
  | delete => "delete"

/-- The operation that a word names. -/
def ofText? : String → Option Operation
  | "create" => some create
  | "read" => some read
  | "update" => some update
  | "delete" => some delete
  | _ => none

/-- The operation that a JSON value names. -/
def ofJson? (j : Json) : Option Operation :=
  (wordOfJson? j).bind ofText?

/-- An operation is read back from its word. -/
theorem ofText?_text (o : Operation) : ofText? o.text = some o := by
  cases o <;> rfl

end Operation

namespace UpdateStrategy

/-- The word for a strategy. -/
def text : UpdateStrategy → String
  | update => "update"
  | replace => "replace"

/-- The strategy that a word names. -/
def ofText? : String → Option UpdateStrategy
  | "update" => some update
  | "replace" => some replace
  | _ => none

/-- The strategy that a JSON value names. -/
def ofJson? (j : Json) : Option UpdateStrategy :=
  (wordOfJson? j).bind ofText?

/-- The strategy where nothing calls for a replacement. -/
def default : UpdateStrategy := update

/-- A strategy is read back from its word. -/
theorem ofText?_text (s : UpdateStrategy) : ofText? s.text = some s := by
  cases s <;> rfl

end UpdateStrategy

end Reconcile
