import Reconcile.Json.Printer

/-!
# Entities and the text of their columns

An entity is one resource: it is written as a row of a table, read back from one, and has a text in
each of its populated columns.

* **Column text**: null has no text, a text is its own text, and every other value has its compact
  JSON text.
* **Types and kinds**: every entity type has a kind, the name under which its entities are
  remembered. Two types may share a kind.
-/

namespace Reconcile

/-- The text of a value in a column. -/
def Json.columnText? : Json → Option String
  | .null => none
  | .str s => some s
  | other => some other.render

/-- The text of a field of a row. -/
def Json.column? (row : Json) (name : String) : Option String :=
  (row.field? name).bind Json.columnText?

/-- A type of entities, by its own name and the name of the kind it belongs to. -/
structure EntityType where
  name : String
  kind : String
deriving DecidableEq, Repr, Inhabited

/-- What an entity is to the rest of the library: columns with texts, and a row to be stored as.
Writing and reading a row may fail, with a text that says why. -/
class Entity (α : Type) where
  /-- The text of a column, where the column is populated. -/
  column : α → String → Option String
  /-- The row that an entity is stored as. -/
  toRow : α → Except String Json
  /-- The entity that a row holds. -/
  ofRow : Json → Except String α

end Reconcile
