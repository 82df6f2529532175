import Reconcile.Proofs.Store.Ledger

/-!
# Calls to the store

Calls to the store come in batches, may fail in the middle of one, and concern many tables. What
they do to one table is a list of changes of its rows (`Store.editsOf`): a batch that fails has
changed the rows before the value at fault, and calls for other tables change nothing
(`Store.table_after`).

If all calls use a table with one schema that names a primary key, the table shows the ledger of
these changes (`Store.shows_after`).
-/

namespace Reconcile

variable {s : Schema} {pk : String}

/-! ### Batches -/

namespace Store

/-- The rows of a batch up to the first value that is none. -/
def leadingRows : List Json → List Row
  | .obj row :: rest => row :: leadingRows rest
  | _ => []

theorem leadingRows_of_not_row {value : Json} (h : ∀ row, value ≠ .obj row) (rest : List Json) :
    leadingRows (value :: rest) = [] := by
  cases value with
  | obj row => exact absurd rfl (h row)
  | _ => rfl

@[simp]
theorem leadingRows_map_obj (rows : List Row) : leadingRows (rows.map .obj) = rows := by
  induction rows with
  | nil => rfl
  | cons row rows ih => rw [List.map_cons, leadingRows, ih]

/-- A batch that is saved saves its rows up to the first value that is none. -/
theorem snd_saveRows (rows : List Json) (t : Table) :
    (saveRows s rows t).2 = ((leadingRows rows).map Edit.save).foldl (Table.edit s) t := by
  fun_induction saveRows s rows t with
  | case1 t => rfl
  | case2 t row rest saved t' hsave result t'' hrest ih =>
    rw [hrest] at ih
    rw [leadingRows, List.map_cons, List.foldl_cons, Table.edit, hsave]
    exact ih
  | case3 t value rest hvalue =>
    rw [leadingRows_of_not_row hvalue]
    rfl

/-- A batch that is removed removes its rows up to the first value that is none. -/
theorem snd_removeRows (rows : List Json) (t : Table) :
    (removeRows s rows t).2 = ((leadingRows rows).map Edit.remove).foldl (Table.edit s) t := by
  fun_induction removeRows s rows t with
  | case1 t => rfl
  | case2 t row rest ih =>
    rw [leadingRows, List.map_cons, List.foldl_cons]
    exact ih
  | case3 t value rest hvalue =>
    rw [leadingRows_of_not_row hvalue]
    rfl

theorem saveRows_obj (row : Row) (rest : List Json) (t : Table) :
    saveRows s (.obj row :: rest) t =
      ((saveRows s rest (t.save s row).2).1.map (.obj (t.save s row).1 :: ·),
        (saveRows s rest (t.save s row).2).2) := rfl

/-- Rows are saved one after the other. -/
theorem saveRows_concat (earlier : List Row) (row : Row) (t : Table) :
    ∃ saved, (saveRows s (earlier.map .obj) t).1 = .ok saved ∧
      saveRows s ((earlier ++ [row]).map .obj) t =
        (.ok (saved ++ [.obj ((saveRows s (earlier.map .obj) t).2.save s row).1]),
          ((saveRows s (earlier.map .obj) t).2.save s row).2) := by
  induction earlier generalizing t with
  | nil => exact ⟨[], rfl, rfl⟩
  | cons first earlier ih =>
    obtain ⟨saved, hsaved, hall⟩ := ih (t.save s first).2
    refine ⟨.obj (t.save s first).1 :: saved, ?_, ?_⟩
    · rw [List.map_cons, saveRows_obj, hsaved]
      rfl
    · rw [List.cons_append, List.map_cons, saveRows_obj, hall]
      rfl

/-! ### Single calls -/

@[simp]
theorem table_setTable (store : Store) (name : String) (t : Table) :
    (store.setTable name t).table name = t := by
  simp [table, setTable]

theorem table_setTable_of_ne (store : Store) {name other : String} (hne : other ≠ name)
    (t : Table) : (store.setTable name t).table other = store.table other := by
  simp [table, setTable, Keyed.find?_put_of_ne _ hne]

/-- Nothing is removed from a table without rows. -/
theorem foldl_remove_empty (rows : List Row) :
    (rows.map Edit.remove).foldl (Table.edit s) Table.empty = Table.empty := by
  induction rows with
  | nil => rfl
  | cons row rows ih =>
    have hempty : Table.empty.remove s row = Table.empty := by
      unfold Table.remove
      cases s.rowKey? row <;> rfl
    rw [List.map_cons, List.foldl_cons, Table.edit, hempty, ih]

theorem table_save (rows : List Json) (store : Store) :
    (store.save s rows).2.table s.table =
      ((leadingRows rows).map Edit.save).foldl (Table.edit s) (store.table s.table) :=
  (table_setTable _ _ _).trans (snd_saveRows rows _)

theorem table_remove (rows : List Json) (store : Store) :
    (store.remove s rows).2.table s.table =
      ((leadingRows rows).map Edit.remove).foldl (Table.edit s) (store.table s.table) := by
  cases hfind : store.tables.find? s.table with
  | none =>
    have hempty : store.table s.table = Table.empty := by rw [table, hfind, Option.getD_none]
    rw [hempty, foldl_remove_empty]
    simp only [Store.remove, hfind, hempty]
  | some t =>
    have htable : store.table s.table = t := by rw [table, hfind, Option.getD_some]
    simp only [Store.remove, hfind, table_setTable, snd_removeRows, htable]

theorem table_save_of_ne (rows : List Json) (store : Store) {name : String} (hne : s.table ≠ name) :
    (store.save s rows).2.table name = store.table name :=
  table_setTable_of_ne store hne.symm _

theorem table_remove_of_ne (rows : List Json) (store : Store) {name : String}
    (hne : s.table ≠ name) : (store.remove s rows).2.table name = store.table name := by
  cases hfind : store.tables.find? s.table with
  | none => simp only [Store.remove, hfind]
  | some t => simp only [Store.remove, hfind, table_setTable_of_ne _ hne.symm]

/-! ### Calls -/

/-- A call to the store. -/
inductive Call where
  | save (s : Schema) (rows : List Json)
  | remove (s : Schema) (rows : List Json)
  | find (s : Schema) (filter : IdFields)

namespace Call

/-- The schema of the table that a call is for. -/
def schema : Call → Schema
  | .save s _ | .remove s _ | .find s _ => s

/-- The store after a call, whether it fails or not. -/
def perform (store : Store) : Call → Store
  | .save s rows => (store.save s rows).2
  | .remove s rows => (store.remove s rows).2
  | .find _ _ => store

/-- The changes that a call makes to the rows of its table. -/
def edits : Call → List Edit
  | .save _ rows => (leadingRows rows).map .save
  | .remove _ rows => (leadingRows rows).map .remove
  | .find _ _ => []

theorem table_perform (store : Store) :
    ∀ call : Call, (call.perform store).table call.schema.table =
      call.edits.foldl (Table.edit call.schema) (store.table call.schema.table)
  | .save _ rows => table_save rows store
  | .remove _ rows => table_remove rows store
  | .find _ _ => rfl

/-- A call changes no other table. -/
theorem table_perform_of_ne (store : Store) {name : String} :
    ∀ call : Call, call.schema.table ≠ name → (call.perform store).table name = store.table name
  | .save _ rows, hne => table_save_of_ne rows store hne
  | .remove _ rows, hne => table_remove_of_ne rows store hne
  | .find _ _, _ => rfl

end Call

variable {calls : List Call}

/-- The store after some calls. -/
def after (calls : List Call) : Store :=
  calls.foldl Call.perform empty

/-- The changes that calls make to the rows of one table. -/
def editsOf (name : String) (calls : List Call) : List Edit :=
  (calls.filter fun call => call.schema.table = name).flatMap Call.edits

/-- All calls for the table of a schema use this schema. -/
def OneSchema (s : Schema) (calls : List Call) : Prop :=
  ∀ call ∈ calls, call.schema.table = s.table → call.schema = s

theorem table_foldl_perform (hcalls : OneSchema s calls) (store : Store) :
    (calls.foldl Call.perform store).table s.table =
      (editsOf s.table calls).foldl (Table.edit s) (store.table s.table) := by
  induction calls generalizing store with
  | nil => rfl
  | cons call calls ih =>
    obtain ⟨hcall, hcalls⟩ := List.forall_mem_cons.mp hcalls
    rw [List.foldl_cons, ih hcalls, editsOf, editsOf]
    by_cases htable : call.schema.table = s.table
    · have hperform := call.table_perform store
      rw [hcall htable] at hperform
      rw [List.filter_cons_of_pos (by simpa using htable), List.flatMap_cons, List.foldl_append,
        hperform]
    · rw [List.filter_cons_of_neg (by simpa using htable),
        call.table_perform_of_ne store htable]

/-- **The table after some calls** is what their changes make of the empty table. -/
theorem table_after (hcalls : OneSchema s calls) :
    (after calls).table s.table = (editsOf s.table calls).foldl (Table.edit s) Table.empty :=
  table_foldl_perform hcalls empty

/-- The ledger of a table after some calls. -/
def ledger (s : Schema) (pk : String) (calls : List Call) : Ledger :=
  Ledger.ofEdits s pk (editsOf s.table calls)

/-- After any calls, a table shows its ledger. -/
theorem shows_after (hpk : s.primaryKey = some pk) (hcalls : OneSchema s calls) :
    ((after calls).table s.table).Shows pk (ledger s pk calls) := by
  rw [table_after hcalls]
  exact .run hpk _

end Store

end Reconcile
