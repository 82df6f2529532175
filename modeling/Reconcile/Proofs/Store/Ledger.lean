import Mathlib.Data.List.Nodup
import Reconcile.Proofs.Store.History
import Reconcile.Proofs.Store.Rows

/-!
# Tables as maps of rows

What a table with a primary key column is meant to be: a map from the texts of primary keys to rows,
in the order in which the keys were inserted, together with the number that was given out last
(`Ledger`). A ledger is told by the history of its changes and says nothing of how rows are found or
replaced.

`Table.Shows.run` is the refinement: whatever rows are saved and removed, the table has the rows of
the ledger in its order.
-/

namespace Reconcile

variable {s : Schema} {pk : String}

/-- A change of the rows of a table. -/
inductive Edit where
  | save (row : Row)
  | remove (row : Row)

/-- An insertion-ordered map of rows by the texts of their primary keys, told by the history of its
changes, and the number that was given out last. -/
structure Ledger where
  history : Keyed.History String Row
  lastNumber : Int64

namespace Ledger

/-- The ledger of a table that was never written to. -/
def empty : Ledger := ⟨[], 0⟩

/-- The rows by their keys. -/
def rows (l : Ledger) : Keyed String Row :=
  Keyed.ofHistory l.history

/-- Enters the change of a row: a saved row is put under its primary key, which is the next number
if it has none; a removed row takes out the keys of the rows that have its key. -/
def edit (s : Schema) (pk : String) (l : Ledger) : Edit → Ledger
  | .save row =>
    let stored := row.numbered pk (l.lastNumber + 1)
    { history := l.history ++ ((stored.column? pk).map fun key => .put key stored).toList
      lastNumber := Table.nextNumber pk row l.lastNumber }
  | .remove row =>
    let removed := l.rows.pairs.filter fun pair => row.SameKey s pk pair.2
    { l with history := l.history ++ removed.map fun pair => .erase pair.1 }

/-- The ledger of a table after some changes of its rows. -/
def ofEdits (s : Schema) (pk : String) (edits : List Edit) : Ledger :=
  edits.foldl (edit s pk) empty

end Ledger

namespace Table

variable {t : Table} {l : Ledger} {row : Row} {key : String}

/-- Makes a change. -/
def edit (s : Schema) (t : Table) : Edit → Table
  | .save row => (t.save s row).2
  | .remove row => t.remove s row

/-- A table has the rows that a ledger says, each under its primary key. -/
structure Shows (pk : String) (t : Table) (l : Ledger) : Prop where
  rows_eq : t.rows = l.rows.values
  column?_eq : ∀ pair ∈ l.rows.pairs, pair.2.column? pk = some pair.1
  lastNumber_eq : t.lastNumber = l.lastNumber

namespace Shows

theorem empty : Table.empty.Shows pk Ledger.empty where
  rows_eq := rfl
  column?_eq := fun _ hpair => absurd hpair List.not_mem_nil
  lastNumber_eq := rfl

theorem save (hpk : s.primaryKey = some pk) (h : t.Shows pk l) (row : Row) :
    (t.edit s (.save row)).Shows pk (l.edit s pk (.save row)) := by
  obtain ⟨key, hkey⟩ := row.exists_column?_numbered pk (t.lastNumber + 1)
  rw [edit, save_eq hpk hkey, Ledger.edit, ← h.lastNumber_eq]
  simp only [hkey, Option.map_some, Option.toList_some]
  refine ⟨?_, fun pair hpair => ?_, rfl⟩
  · rw [Ledger.rows, Keyed.ofHistory_snoc, h.rows_eq]
    refine upsert_map_snd fun pair hpair => ?_
    rw [Bool.eq_iff_iff, Row.agrees_singleton_iff, h.column?_eq pair hpair, decide_eq_true_iff,
      Option.some.injEq, eq_comm]
  · rw [Ledger.rows, Keyed.ofHistory_snoc] at hpair
    have hfind := Keyed.find?_eq_some_iff.mpr hpair
    rw [Keyed.Change.apply, Keyed.find?_put] at hfind
    split_ifs at hfind with heq
    · rw [heq, ← Option.some.inj hfind]
      exact hkey
    · exact h.column?_eq pair (Keyed.find?_eq_some_iff.mp hfind)

theorem remove (hpk : s.primaryKey = some pk) (h : t.Shows pk l) (row : Row) :
    (t.edit s (.remove row)).Shows pk (l.edit s pk (.remove row)) := by
  have hpairs : (l.edit s pk (.remove row)).rows.pairs =
      l.rows.pairs.filter fun pair => ¬ row.SameKey s pk pair.2 := by
    have herase := Keyed.pairs_foldl_erase_filter l.rows fun pair => row.SameKey s pk pair.2
    rw [List.foldl_map] at herase
    rw [Ledger.rows, Ledger.edit, Keyed.ofHistory_append, List.foldl_map]
    simp only [decide_not]
    exact herase
  rw [edit, remove_eq hpk]
  refine ⟨?_, fun pair hpair => ?_, h.lastNumber_eq⟩
  · rw [Keyed.values, hpairs, h.rows_eq, Keyed.values, List.filter_map]
    rfl
  · rw [hpairs] at hpair
    exact h.column?_eq pair (List.mem_filter.mp hpair).1

/-- **A change of a table** is entered into its ledger. -/
theorem edit (hpk : s.primaryKey = some pk) (h : t.Shows pk l) :
    ∀ e : Edit, (t.edit s e).Shows pk (l.edit s pk e)
  | .save row => h.save hpk row
  | .remove row => h.remove hpk row

/-- **Tables are maps of rows**: after any changes, a table shows its ledger. -/
theorem run (hpk : s.primaryKey = some pk) (edits : List Edit) :
    (edits.foldl (Table.edit s) Table.empty).Shows pk (Ledger.ofEdits s pk edits) := by
  induction edits using List.reverseRecOn with
  | nil => exact empty
  | append_singleton edits e ih =>
    rw [Ledger.ofEdits, List.foldl_concat, List.foldl_concat]
    exact ih.edit hpk e

/-! What a table that shows a ledger is like. -/

theorem map_column? (h : t.Shows pk l) :
    t.rows.map (fun row => row.column? pk) = l.rows.keys.map some := by
  rw [h.rows_eq, Keyed.values, Keyed.keys, List.map_map, List.map_map]
  exact List.map_congr_left h.column?_eq

/-- No two rows have the same primary key. -/
theorem nodup (h : t.Shows pk l) : (t.rows.map fun row => row.column? pk).Nodup := by
  rw [h.map_column?]
  exact List.Nodup.map (fun _ _ => Option.some.inj) l.rows.distinct

/-- Every row has a primary key. -/
theorem lacks_eq_false (h : t.Shows pk l) (hrow : row ∈ t.rows) : row.lacks pk = false := by
  have hmem : row.column? pk ∈ l.rows.keys.map some := h.map_column? ▸ List.mem_map_of_mem hrow
  obtain ⟨key, -, hkey⟩ := List.mem_map.mp hmem
  exact Row.lacks_eq_false_iff.mpr (hkey ▸ rfl)

/-- The row of a key is what the ledger has under it. -/
theorem find_eq (h : t.Shows pk l) (key : String) :
    t.find [(pk, key)] = (l.rows.find? key).toList := by
  rw [find, h.rows_eq, ← Keyed.filter_key_eq, Keyed.values, List.filter_map]
  refine congrArg _ (List.filter_congr fun pair hpair => ?_)
  rw [Bool.eq_iff_iff, Function.comp_apply, Row.agrees_singleton_iff, h.column?_eq pair hpair,
    Option.some.injEq, decide_eq_true_iff]

end Shows

/-- Removing a row that has a primary key takes out the row of this key. -/
theorem Shows.takes_remove (hpk : s.primaryKey = some pk) (h : t.Shows pk l)
    (hkey : row.column? pk = some key) : Takes pk key t.rows (t.remove s row).rows := by
  rw [remove_eq hpk]
  simpa only [Row.SameKey, hkey] using takes_filter h.nodup

end Table

end Reconcile
