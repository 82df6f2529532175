import Mathlib.Tactic.SplitIfs
import Reconcile.Proofs.Fields
import Reconcile.Store.Basic

/-!
# Rows of a table with a primary key

What saving and removing a row does to the rows of a table whose schema names a primary key column,
without the look-ups by which it is done.

* `Table.save_eq`, `Table.puts_save`: a saved row has a primary key, and it is put in the place of
  the row of its key, or at the end.
* `Table.remove_eq`, `Table.takes_filter`: a row that is removed takes all rows of its key with it
  (`Row.SameKey`), which is one row at most if keys are distinct.
-/

namespace Reconcile

variable {s : Schema} {pk : String}

/-! ### Rows and their keys -/

namespace Row

/-- The row with a number for its primary key, unless it has one. -/
def numbered (pk : String) (n : Int64) (row : Row) : Row :=
  if row.lacks pk then row.put pk (.int n.toInt) else row

/-- Whether two rows agree in the cloud id columns, all of which have to have texts. -/
def SameCloudId (s : Schema) (row other : Row) : Prop :=
  s.cloudId ≠ [] ∧
    ∀ name ∈ s.cloudId, (row.column? name).isSome ∧ other.column? name = row.column? name

instance (s : Schema) (row other : Row) : Decidable (SameCloudId s row other) :=
  inferInstanceAs (Decidable (_ ∧ _))

theorem lacks_eq_false_iff {row : Row} {name : String} :
    row.lacks name = false ↔ (row.column? name).isSome := by
  unfold lacks column?
  cases row.find? name with
  | none => simp
  | some value => cases value <;> simp [Json.isNull, Json.columnText?]

theorem column?_eq_none_iff {row : Row} {name : String} :
    row.column? name = none ↔ row.lacks name = true := by
  rw [← Option.not_isSome_iff_eq_none, ← lacks_eq_false_iff, Bool.not_eq_false]

theorem column?_put_int (row : Row) (n : Int) :
    Row.column? (row.put pk (.int n)) pk = some (toString n) := by
  rw [column?, Fields.find?_put_self]
  rfl

theorem numbered_of_lacks {row : Row} (h : row.lacks pk = true) (n : Int64) :
    row.numbered pk n = row.put pk (.int n.toInt) :=
  if_pos h

theorem numbered_of_not_lacks {row : Row} (h : row.lacks pk = false) (n : Int64) :
    row.numbered pk n = row :=
  if_neg (h ▸ Bool.false_ne_true)

/-- A row that was numbered has a primary key. -/
theorem exists_column?_numbered (row : Row) (pk : String) (n : Int64) :
    ∃ key, (row.numbered pk n).column? pk = some key := by
  cases h : row.lacks pk with
  | true => exact ⟨_, numbered_of_lacks h n ▸ column?_put_int row n.toInt⟩
  | false =>
    rw [numbered_of_not_lacks h]
    exact Option.isSome_iff_exists.mp (lacks_eq_false_iff.mp h)

theorem agrees_iff {filter : IdFields} {row : Row} :
    row.agrees filter = true ↔
      ∀ name text, (name, text) ∈ filter → row.column? name = some text := by
  simp [agrees]

theorem agrees_singleton_iff {key : String} {row : Row} :
    row.agrees [(pk, key)] = true ↔ row.column? pk = some key := by
  simp [agrees]

/-- A row with a primary key is identified by it. -/
theorem rowKey?_of_column? {row : Row} {text : String} (hpk : s.primaryKey = some pk)
    (htext : row.column? pk = some text) : s.rowKey? row = some [(pk, text)] := by
  simp [Schema.rowKey?, hpk, htext]

/-! ### Cloud id columns -/

/-- Whether two rows have the same key: the same primary key if the first one has one, and otherwise
the same cloud id. -/
def SameKey (s : Schema) (pk : String) (row other : Row) : Prop :=
  match row.column? pk with
  | some key => other.column? pk = some key
  | none => SameCloudId s row other

instance (s : Schema) (pk : String) (row other : Row) : Decidable (SameKey s pk row other) :=
  match h : row.column? pk with
  | some key => decidable_of_iff (other.column? pk = some key) (by rw [SameKey, h])
  | none => decidable_of_iff (SameCloudId s row other) (by rw [SameKey, h])

/-- The texts of the cloud id columns of a row are the texts that rows agreeing with it have. -/
theorem agrees_cloudId_iff {row other : Row} :
    other.agrees (Fields.ofPairs ((s.cloudId.map fun name =>
      (row.column? name).map fun text => (name, text)).filterMap id)) = true ↔
      ∀ name ∈ s.cloudId, ∀ text,
        row.column? name = some text → other.column? name = some text := by
  have hmem : ∀ name text, (name, text) ∈ (s.cloudId.map fun name =>
      (row.column? name).map fun text => (name, text)).filterMap id ↔
        name ∈ s.cloudId ∧ row.column? name = some text := by
    intro name text
    simp only [List.mem_filterMap, List.mem_map, id_eq, exists_eq_right, Option.map_eq_some_iff,
      Prod.mk.injEq, exists_eq_right_right]
  rw [agrees_iff]
  simp only [Fields.mem_ofPairs_iff fun name text h => ((hmem name text).mp h).2, hmem, and_imp]
  exact forall_congr' fun name => forall_comm

/-- The columns that identify a row find the rows of its key. -/
theorem any_agrees_iff (hpk : s.primaryKey = some pk) {row other : Row} :
    ((s.rowKey? row).any fun key => other.agrees key) = true ↔ row.SameKey s pk other := by
  unfold Schema.rowKey? SameKey
  simp only [hpk, Option.bind_some]
  cases row.column? pk with
  | some key => exact agrees_singleton_iff
  | none =>
    simp only [Option.map_none]
    split_ifs with hempty hall
    · simp_all [SameCloudId]
    · have hsome : ∀ name ∈ s.cloudId, (row.column? name).isSome := by simpa using hall
      rw [Option.any_some, agrees_cloudId_iff]
      constructor
      · refine fun h => ⟨by simpa using hempty, fun name hname => ⟨hsome name hname, ?_⟩⟩
        obtain ⟨text, htext⟩ := Option.isSome_iff_exists.mp (hsome name hname)
        rw [htext, h name hname text htext]
      · rintro ⟨-, h⟩ name hname text htext
        rw [(h name hname).2, htext]
    · have hnone : ¬ ∀ name ∈ s.cloudId, (row.column? name).isSome := by simpa using hall
      simp only [Option.any_none, Bool.false_eq_true, false_iff]
      exact fun h => hnone fun name hname => (h.2 name hname).1

end Row

/-! ### Tables -/

namespace Table

variable {t : Table} {row : Row} {key : String}

/-- The number that was given out last once a row is saved. -/
def nextNumber (pk : String) (row : Row) (n : Int64) : Int64 :=
  if row.lacks pk then n + 1 else n

/-- **Saving a row** whose primary key is set or assigned. -/
theorem save_eq (hpk : s.primaryKey = some pk)
    (hkey : (row.numbered pk (t.lastNumber + 1)).column? pk = some key) :
    t.save s row = (row.numbered pk (t.lastNumber + 1),
      ⟨upsert (Row.agrees [(pk, key)]) (row.numbered pk (t.lastNumber + 1)) t.rows,
        nextNumber pk row t.lastNumber⟩) := by
  have hnumber : t.number s row =
      (row.numbered pk (t.lastNumber + 1), ⟨t.rows, nextNumber pk row t.lastNumber⟩) := by
    unfold number Row.numbered nextNumber
    rw [hpk]
    dsimp only
    split_ifs <;> rfl
  simp only [save, hnumber, Row.rowKey?_of_column? hpk hkey]

/-- The row as it is saved. -/
theorem fst_save (hpk : s.primaryKey = some pk) (t : Table) (row : Row) :
    (t.save s row).1 = row.numbered pk (t.lastNumber + 1) := by
  obtain ⟨key, hkey⟩ := row.exists_column?_numbered pk (t.lastNumber + 1)
  rw [save_eq hpk hkey]

/-- **Removing a row** removes all rows of its key. -/
theorem remove_eq (hpk : s.primaryKey = some pk) :
    t.remove s row = { t with rows := t.rows.filter fun other => ¬ row.SameKey s pk other } := by
  have hany : ∀ other, (! (s.rowKey? row).any fun key => other.agrees key) =
      decide (¬ row.SameKey s pk other) := fun other => by
    rw [Bool.eq_iff_iff, Bool.not_eq_true', decide_eq_true_iff, ← Row.any_agrees_iff hpk,
      Bool.not_eq_true]
  simp only [← hany]
  unfold remove
  cases s.rowKey? row with
  | some key => rfl
  | none =>
    have hall : t.rows.filter (fun _ => ! false) = t.rows := List.filter_eq_self.mpr fun _ _ => rfl
    simp only [Option.any_none, hall]

/-- A row has been put among rows that are told apart by a column: in the place of the row of its
key, or at the end if there is none. -/
def Puts (pk key : String) (stored : Row) (rows rows' : List Row) : Prop :=
  (∃ before old rest, rows = before ++ old :: rest ∧ old.column? pk = some key ∧
    rows' = before ++ stored :: rest) ∨
  (∀ other ∈ rows, other.column? pk ≠ some key) ∧ rows' = rows ++ [stored]

/-- The row of a key has been taken out of rows that are told apart by a column, and no other. -/
def Takes (pk key : String) (rows rows' : List Row) : Prop :=
  (∃ before old rest, rows = before ++ old :: rest ∧ old.column? pk = some key ∧
    rows' = before ++ rest) ∨
  (∀ other ∈ rows, other.column? pk ≠ some key) ∧ rows' = rows

theorem puts_upsert (pk key : String) (stored : Row) (rows : List Row) :
    Puts pk key stored rows (upsert (Row.agrees [(pk, key)]) stored rows) := by
  induction rows with
  | nil => exact .inr ⟨by simp, rfl⟩
  | cons first rest ih =>
    unfold upsert
    split_ifs with hfirst
    · exact .inl ⟨[], first, rest, rfl, Row.agrees_singleton_iff.mp hfirst, rfl⟩
    · rcases ih with ⟨before, old, rest', rfl, hold, hrows⟩ | ⟨hnone, hrows⟩
      · exact .inl ⟨first :: before, old, rest', rfl, hold, by rw [hrows]; rfl⟩
      · refine .inr ⟨List.forall_mem_cons.mpr ⟨?_, hnone⟩, by rw [hrows]; rfl⟩
        exact fun heq => hfirst (Row.agrees_singleton_iff.mpr heq)

/-- Saving a row puts it under its primary key. -/
theorem puts_save (hpk : s.primaryKey = some pk) (t : Table) (row : Row) :
    ∃ key, (t.save s row).1.column? pk = some key ∧
      Puts pk key (t.save s row).1 t.rows (t.save s row).2.rows := by
  obtain ⟨key, hkey⟩ := row.exists_column?_numbered pk (t.lastNumber + 1)
  rw [save_eq hpk hkey]
  exact ⟨key, hkey, puts_upsert pk key _ _⟩

theorem takes_filter {rows : List Row} (h : (rows.map fun row => row.column? pk).Nodup) :
    Takes pk key rows (rows.filter fun row => ¬ row.column? pk = some key) := by
  induction rows with
  | nil => exact .inr ⟨by simp, rfl⟩
  | cons first rest ih =>
    obtain ⟨hfirst, hrest⟩ := List.nodup_cons.mp h
    by_cases hkey : first.column? pk = some key
    · have hnone : ∀ row ∈ rest, row.column? pk ≠ some key := fun row hrow heq =>
        hfirst (List.mem_map.mpr ⟨row, hrow, heq.trans hkey.symm⟩)
      have hall : rest.filter (fun row => ¬ row.column? pk = some key) = rest :=
        List.filter_eq_self.mpr (by simpa using hnone)
      exact .inl ⟨[], first, rest, rfl, hkey, by simpa [hkey] using hall⟩
    · rw [List.filter_cons_of_pos (by simpa using hkey)]
      rcases ih hrest with ⟨before, old, rest', rfl, hold, hrows⟩ | ⟨hnone, hrows⟩
      · exact .inl ⟨first :: before, old, rest', rfl, hold, by rw [hrows]; rfl⟩
      · exact .inr ⟨List.forall_mem_cons.mpr ⟨hkey, hnone⟩, by rw [hrows]⟩

/-- Saving into the rows of a keyed collection is writing. -/
theorem upsert_map_snd {p : Row → Bool} {pairs : List (String × Row)}
    (h : ∀ pair ∈ pairs, p pair.2 = decide (key = pair.1)) :
    upsert p row (pairs.map Prod.snd) = (Keyed.write key row pairs).map Prod.snd := by
  induction pairs with
  | nil => rfl
  | cons pair rest ih =>
    obtain ⟨other, old⟩ := pair
    obtain ⟨hpair, hrest⟩ := List.forall_mem_cons.mp h
    rw [List.map_cons, upsert, hpair, ih hrest, Keyed.write]
    by_cases hkey : key = other <;> simp [hkey]

end Table

end Reconcile
