import Reconcile.Entity.Identity
import Reconcile.Keyed

/-!
# The store of declared state

Tables of rows in memory. A row is a JSON object. Tables come into being when they are first written
to, and the rows of a table stand in the order in which they were first saved.

* **Numbering**: a row that is saved without a primary key gets the next number of its table.
* **Row keys**: a row is identified by its primary key if it has one, and otherwise by its cloud id
  columns. Saving a row replaces the first row that agrees with it in these columns, and appends the
  row when there is none; removing a row removes all rows that agree with it.
* Columns are compared by their texts.
-/

namespace Reconcile

/-- A row of a table: the fields of a JSON object. -/
abbrev Row := Fields Json

namespace Row

/-- The text of a column of a row. -/
def column? (row : Row) (name : String) : Option String :=
  (row.find? name).bind Json.columnText?

/-- Whether the columns of a row have the given texts. -/
def agrees (filter : IdFields) (row : Row) : Bool :=
  filter.all fun (name, text) => row.column? name == some text

/-- Whether a column is absent or null. -/
def lacks (row : Row) (name : String) : Bool :=
  match row.find? name with
  | some value => value.isNull
  | none => true

end Row

/-- The columns that identify a row: its primary key if it has one, and otherwise its cloud id
columns if it has all of them. -/
def Schema.rowKey? (s : Schema) (row : Row) : Option IdFields :=
  match s.primaryKey.bind fun pk => (row.column? pk).map fun text => (pk, text) with
  | some field => some [field]
  | none =>
    if s.cloudId.isEmpty then none
    else
      let texts := s.cloudId.map fun name => (row.column? name).map fun text => (name, text)
      if texts.all Option.isSome then some (Fields.ofPairs (texts.filterMap id)) else none

/-- A table: its rows, and the number that was given out last. -/
structure Table where
  rows : List Row
  lastNumber : Int64
deriving Inhabited

namespace Table

/-- The table without rows. -/
def empty : Table := ⟨[], 0⟩

/-- Replaces the first row that satisfies `p`, and appends the row when there is none. -/
def upsert (p : Row → Bool) (row : Row) : List Row → List Row
  | [] => [row]
  | other :: rest => if p other then row :: rest else other :: upsert p row rest

/-- The row with the next number of the table, if it has no primary key. -/
def number (s : Schema) (row : Row) (t : Table) : Row × Table :=
  match s.primaryKey with
  | some pk =>
    if row.lacks pk then
      let n := t.lastNumber + 1
      (row.put pk (.int n.toInt), { t with lastNumber := n })
    else (row, t)
  | none => (row, t)

/-- Saves a row, and answers with the row as it is stored. -/
def save (s : Schema) (row : Row) (t : Table) : Row × Table :=
  let (row, t) := t.number s row
  match s.rowKey? row with
  | some key => (row, { t with rows := upsert (Row.agrees key) row t.rows })
  | none => (row, { t with rows := t.rows ++ [row] })

/-- Removes the rows that agree with a row in the columns that identify it. -/
def remove (s : Schema) (row : Row) (t : Table) : Table :=
  match s.rowKey? row with
  | some key => { t with rows := t.rows.filter fun r => ! Row.agrees key r }
  | none => t

/-- The rows that agree with a filter. -/
def find (filter : IdFields) (t : Table) : List Row :=
  t.rows.filter (Row.agrees filter)

end Table

/-- The tables, by their names. -/
structure Store where
  tables : Keyed String Table
deriving Inhabited

namespace Store

/-- The store without tables. -/
def empty : Store := ⟨Keyed.empty⟩

/-- A table, which has no rows as long as it was not written to. -/
def table (store : Store) (name : String) : Table :=
  (store.tables.find? name).getD Table.empty

/-- Replaces a table. -/
def setTable (store : Store) (name : String) (t : Table) : Store :=
  ⟨store.tables.put name t⟩

/-- The number of rows in a table. -/
def count (store : Store) (name : String) : Nat :=
  (store.table name).rows.length

/-- The rows of a table that agree with a filter. -/
def find (s : Schema) (filter : IdFields) (store : Store) : List Json :=
  ((store.table s.table).find filter).map .obj

/-- The error for a value that is no row. -/
def notARow (s : Schema) (value : Json) : ResourceError :=
  .rowNotObject s.table value.render

/-- Saves values as rows of a table, one after the other, and answers with the rows as they are
stored. The first value that is no object ends the call with an error. -/
def saveRows (s : Schema) : List Json → Table → Except ResourceError (List Json) × Table
  | [], t => (.ok [], t)
  | .obj row :: rest, t =>
    let (saved, t) := t.save s row
    let (result, t) := saveRows s rest t
    (result.map (.obj saved :: ·), t)
  | value :: _, t => (.error (notARow s value), t)

/-- Saves values as rows, and answers with the rows as they are stored. -/
def save (s : Schema) (rows : List Json) (store : Store) :
    Except ResourceError (List Json) × Store :=
  let (result, t) := saveRows s rows (store.table s.table)
  (result, store.setTable s.table t)

/-- Removes rows from a table, one after the other. The first value that is no object ends the call
with an error. -/
def removeRows (s : Schema) : List Json → Table → Except ResourceError Unit × Table
  | [], t => (.ok (), t)
  | .obj row :: rest, t => removeRows s rest (t.remove s row)
  | value :: _, t => (.error (notARow s value), t)

/-- Removes rows. Nothing can be wrong with rows to be removed from a table that was never written
to. -/
def remove (s : Schema) (rows : List Json) (store : Store) : Except ResourceError Unit × Store :=
  match store.tables.find? s.table with
  | none => (.ok (), store)
  | some t =>
    let (result, t) := removeRows s rows t
    (result, store.setTable s.table t)

end Store

end Reconcile
