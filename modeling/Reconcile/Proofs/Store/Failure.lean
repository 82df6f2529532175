import Reconcile.Proofs.Store.Backend

/-!
# Writes that fail

A write of entities to the store can fail at three points: an entity cannot be written as a row, a
row is no object, or a row that was saved cannot be read back as an entity (`Store.Write.Flawed`).
Nothing has been written at the first point. But rows are written one by one as a batch is gone
through, so at the second point the rows before the one at fault have been written already, and at
the third point all of them have. Nothing takes them back.

So the table after a failed write is what the written rows make of it (`Store.writtenRows`), and its
rows are what they were exactly if writing these rows changes nothing (`Store.Write.Spares`): rows
that are saved are there already, and no row has the key of one that is removed.
`Crud.failed_write_iff` says so for the calls on the declared side of an entity type.
-/

namespace Reconcile

variable {s : Schema}

/-! ### Rows and their keys -/

namespace Row

variable {row other : Row} {key : IdFields}

/-- A row has a primary key, if the schema names a column for it. All rows that were saved do. -/
def Numbered (s : Schema) (row : Row) : Prop :=
  ∀ pk, s.primaryKey = some pk → row.lacks pk = false

/-- A row agrees with its own key. -/
theorem agrees_rowKey? (hkey : s.rowKey? row = some key) : row.agrees key = true := by
  unfold Schema.rowKey? at hkey
  split at hkey
  · rename_i field hfield
    obtain ⟨pk, -, hfield⟩ := Option.bind_eq_some_iff.mp hfield
    obtain ⟨text, htext, rfl⟩ := Option.map_eq_some_iff.mp hfield
    cases hkey
    exact agrees_singleton_iff.mpr htext
  · dsimp only at hkey
    split_ifs at hkey
    cases hkey
    exact agrees_cloudId_iff.mpr fun _ _ _ htext => htext

/-- A row that agrees with the key of a row that was saved has this key. -/
theorem agrees_iff_rowKey? (hrow : row.Numbered s) (hkey : s.rowKey? row = some key) :
    other.agrees key = true ↔ s.rowKey? other = some key := by
  refine ⟨fun hagrees => ?_, agrees_rowKey?⟩
  cases hpk : s.primaryKey with
  | some pk =>
    obtain ⟨text, htext⟩ := Option.isSome_iff_exists.mp (lacks_eq_false_iff.mp (hrow pk hpk))
    rw [rowKey?_of_column? hpk htext] at hkey
    cases hkey
    exact rowKey?_of_column? hpk (agrees_singleton_iff.mp hagrees)
  | none =>
    -- the keys of both rows are made of the texts in the cloud id columns, which are the same
    simp only [Schema.rowKey?, hpk, Option.bind_none] at hkey ⊢
    split_ifs at hkey with hempty hall
    cases hkey
    rw [if_neg hempty]
    have hsame : ∀ name ∈ s.cloudId, other.column? name = row.column? name := by
      intro name hname
      have hsome : (row.column? name).isSome := by
        have hpart := List.all_eq_true.mp hall _ (List.mem_map_of_mem hname)
        simpa using hpart
      obtain ⟨text, htext⟩ := Option.isSome_iff_exists.mp hsome
      rw [htext, agrees_cloudId_iff.mp hagrees name hname text htext]
    have htexts : (s.cloudId.map fun name => (other.column? name).map fun text => (name, text)) =
        s.cloudId.map fun name => (row.column? name).map fun text => (name, text) :=
      List.map_congr_left fun name hname => by rw [hsame name hname]
    rw [htexts, if_pos hall]

/-- Whether another row agrees with the key of a row. -/
def finds (s : Schema) (row other : Row) : Bool :=
  (s.rowKey? row).any fun key => other.agrees key

theorem finds_iff (hrow : row.Numbered s) :
    row.finds s other = true ↔ ∃ key, s.rowKey? row = some key ∧ s.rowKey? other = some key := by
  unfold finds
  cases hkey : s.rowKey? row with
  | none => simp
  | some key => simp [agrees_iff_rowKey? hrow hkey]

/-- A row finds the rows of one key only. -/
theorem finds_congr {third : Row} (hrow : row.Numbered s) (hthird : third.Numbered s)
    (hfinds : row.finds s other = true) : third.finds s row = third.finds s other := by
  obtain ⟨key, hkey, hother⟩ := (finds_iff hrow).mp hfinds
  rw [Bool.eq_iff_iff, finds_iff hthird, finds_iff hthird, hkey, hother]

end Row

/-! ### Saved and removed rows -/

namespace Table

variable {stored : List Row}

/-- Writes a row over the first row of its key, or adds it. -/
def overwrite (s : Schema) (rows : List Row) (row : Row) : List Row :=
  upsert (row.finds s) row rows

/-- The last one of the rows with the key of a row is the first row that the table has under it. -/
def Holds (s : Schema) (stored rows : List Row) (row : Row) : Prop :=
  ∃ key, s.rowKey? row = some key ∧
    rows.find? (Row.agrees key) = (stored.filter (Row.agrees key)).getLast?

theorem upsert_false (row : Row) (rows : List Row) :
    upsert (fun _ => false) row rows = rows ++ [row] := by
  induction rows with
  | nil => rfl
  | cons first rest ih => rw [upsert, ih]; rfl

/-- The stored row is written over the first row of its key, or added. -/
theorem rows_save (t : Table) (row : Row) :
    (t.save s row).2.rows = overwrite s t.rows (t.save s row).1 := by
  have hrows : (t.number s row).2.rows = t.rows := by
    unfold number
    split
    · dsimp only
      split <;> rfl
    · rfl
  unfold save overwrite Row.finds
  dsimp only
  split
  · rename_i key hkey
    simp only [hkey, Option.any_some, hrows]
  · rename_i hkey
    simp only [hkey, Option.any_none, upsert_false, hrows]

theorem numbered_save (t : Table) (row : Row) : (t.save s row).1.Numbered s := by
  intro pk hpk
  rw [fst_save hpk]
  obtain ⟨key, hkey⟩ := row.exists_column?_numbered pk (t.lastNumber + 1)
  exact Row.lacks_eq_false_iff.mpr (hkey ▸ rfl)

theorem numbered_of_mem_storedRows {rows : List Row} {t : Table} {row : Row}
    (h : row ∈ storedRows s rows t) : row.Numbered s := by
  induction rows generalizing t with
  | nil => exact absurd h List.not_mem_nil
  | cons first rest ih =>
    rcases List.mem_cons.mp h with rfl | h
    · exact numbered_save t first
    · exact ih h

theorem rows_foldl_save (rows : List Row) (t : Table) :
    ((rows.map Edit.save).foldl (edit s) t).rows =
      (storedRows s rows t).foldl (overwrite s) t.rows := by
  induction rows generalizing t with
  | nil => rfl
  | cons row rest ih =>
    rw [List.map_cons, List.foldl_cons, edit, ih, rows_save, storedRows, List.foldl_cons]

/-- Of the rows that are written, those that find the first row replace it, and the others are
written among the rows behind it. -/
theorem foldl_overwrite_cons (hstored : ∀ row ∈ stored, row.Numbered s) (first : Row)
    (rest : List Row) :
    stored.foldl (overwrite s) (first :: rest) =
      (stored.filter fun row => row.finds s first).getLast?.getD first ::
        (stored.filter fun row => ! row.finds s first).foldl (overwrite s) rest := by
  induction stored generalizing first rest with
  | nil => rfl
  | cons row stored ih =>
    obtain ⟨hrow, hstored⟩ := List.forall_mem_cons.mp hstored
    rw [List.foldl_cons]
    by_cases hfinds : row.finds s first = true
    · have hover : overwrite s (first :: rest) row = row :: rest := if_pos hfinds
      have hsame : ∀ other ∈ stored, other.finds s row = other.finds s first := fun other hother =>
        Row.finds_congr hrow (hstored other hother) hfinds
      rw [hover, ih hstored, List.filter_congr hsame,
        List.filter_congr fun other hother => congrArg (! ·) (hsame other hother),
        List.filter_cons, if_pos hfinds, List.filter_cons, if_neg (by simp [hfinds]),
        List.getLast?_cons, Option.getD_some]
    · have hover : overwrite s (first :: rest) row = first :: overwrite s rest row := if_neg hfinds
      rw [hover, ih hstored, List.filter_cons, if_neg hfinds, List.filter_cons,
        if_pos (by simpa using hfinds), List.foldl_cons]

/-- Whether the row at the front stays decides for the rows that find it. -/
theorem holds_cons_of_finds (hstored : ∀ row ∈ stored, row.Numbered s) {row first : Row}
    {rest : List Row} (hrow : row ∈ stored) (hfinds : row.finds s first = true) :
    Holds s stored (first :: rest) row ↔
      (stored.filter fun row => row.finds s first).getLast?.getD first = first := by
  obtain ⟨key, hkey, hfirst⟩ := (Row.finds_iff (hstored row hrow)).mp hfinds
  have hfilter : stored.filter (Row.agrees key) = stored.filter fun row => row.finds s first := by
    refine List.filter_congr fun other hother => ?_
    rw [Bool.eq_iff_iff, Row.agrees_iff_rowKey? (hstored row hrow) hkey,
      Row.finds_iff (hstored other hother), hfirst]
    simp
  have hmem : row ∈ stored.filter fun row => row.finds s first :=
    List.mem_filter.mpr ⟨hrow, hfinds⟩
  have hfind : (first :: rest).find? (Row.agrees key) = some first :=
    List.find?_cons_of_pos (Row.agrees_rowKey? hfirst)
  have hlast := List.getLast?_eq_some_getLast (List.ne_nil_of_mem hmem)
  simp only [Holds, hkey, Option.some.injEq, exists_eq_left', hfind, hfilter, hlast,
    Option.getD_some]
  exact eq_comm

/-- The rows that do not find the row at the front are looked for behind it. -/
theorem holds_cons_of_not_finds (hstored : ∀ row ∈ stored, row.Numbered s) {row first : Row}
    {rest : List Row} (hrow : row ∈ stored) (hfinds : ¬ row.finds s first = true) :
    Holds s stored (first :: rest) row ↔
      Holds s (stored.filter fun row => ! row.finds s first) rest row := by
  refine exists_congr fun key => and_congr_right fun hkey => ?_
  have hfirst : ¬ first.agrees key = true := by simpa [Row.finds, hkey] using hfinds
  have hfilter : (stored.filter fun row => ! row.finds s first).filter (Row.agrees key) =
      stored.filter (Row.agrees key) := by
    rw [List.filter_filter]
    refine List.filter_congr fun other hother => ?_
    by_cases hagrees : other.agrees key = true
    · have hother := (Row.agrees_iff_rowKey? (hstored row hrow) hkey).mp hagrees
      simpa [Row.finds, hother, hagrees] using hfirst
    · simp [hagrees]
  rw [List.find?_cons_of_neg hfirst, hfilter]

/-- **Writing rows over a table** changes nothing exactly if the table holds them already. -/
theorem foldl_overwrite_eq_iff (hstored : ∀ row ∈ stored, row.Numbered s) {rows : List Row} :
    stored.foldl (overwrite s) rows = rows ↔ ∀ row ∈ stored, Holds s stored rows row := by
  induction rows generalizing stored with
  | nil =>
    cases stored with
    | nil => simp
    | cons row stored =>
      -- the first row of a batch is added, and there is no row that could be held
      have hadded : ¬ (row :: stored).foldl (overwrite s) [] = [] := by
        have hover : overwrite s [] row = [row] := rfl
        rw [List.foldl_cons, hover, foldl_overwrite_cons (List.forall_mem_cons.mp hstored).2]
        exact List.cons_ne_nil _ _
      refine iff_of_false hadded fun hall => ?_
      obtain ⟨key, hkey, hfind⟩ := hall row List.mem_cons_self
      rw [List.filter_cons_of_pos (Row.agrees_rowKey? hkey), List.getLast?_cons] at hfind
      cases hfind
  | cons first rest ih =>
    have hothers : ∀ row ∈ stored.filter fun row => ! row.finds s first, row.Numbered s :=
      fun row hrow => hstored row (List.mem_filter.mp hrow).1
    rw [foldl_overwrite_cons hstored, List.cons.injEq, ih hothers]
    constructor
    · rintro ⟨hfirst, hrest⟩ row hrow
      by_cases hfinds : row.finds s first = true
      · exact (holds_cons_of_finds hstored hrow hfinds).mpr hfirst
      · exact (holds_cons_of_not_finds hstored hrow hfinds).mpr
          (hrest row (List.mem_filter.mpr ⟨hrow, by simpa using hfinds⟩))
    · refine fun hall => ⟨?_, fun row hrow => ?_⟩
      · cases hfound : stored.filter fun row => row.finds s first with
        | nil => rfl
        | cons row _ =>
          obtain ⟨hrow, hfinds⟩ := List.mem_filter.mp (hfound ▸ List.mem_cons_self)
          exact hfound ▸ (holds_cons_of_finds hstored hrow hfinds).mp (hall row hrow)
      · obtain ⟨hrow, hfinds⟩ := List.mem_filter.mp hrow
        exact (holds_cons_of_not_finds hstored hrow (by simpa using hfinds)).mp (hall row hrow)

/-- Removing rows leaves the rows that have the key of none of them. -/
theorem rows_foldl_remove (rows : List Row) (t : Table) :
    ((rows.map Edit.remove).foldl (edit s) t).rows =
      t.rows.filter fun other => rows.all fun row => ! row.finds s other := by
  induction rows generalizing t with
  | nil => exact (List.filter_eq_self.mpr fun _ _ => rfl).symm
  | cons row rest ih =>
    have hremove : (t.remove s row).rows = t.rows.filter fun other => ! row.finds s other := by
      unfold remove Row.finds
      cases s.rowKey? row with
      | none => exact (List.filter_eq_self.mpr fun _ _ => rfl).symm
      | some key => rfl
    rw [List.map_cons, List.foldl_cons, edit, ih, hremove, List.filter_filter]
    simp only [List.all_cons, Bool.and_comm]

end Table

/-! ### Writes -/

namespace Store

variable {α : Type} [Entity α]

/-- A call that writes entities to the store. -/
inductive Write where
  | create
  | update
  | delete
deriving DecidableEq

namespace Write

/-- The operation that a write belongs to. -/
def operation : Write → Operation
  | .create => .create
  | .update => .update
  | .delete => .delete

/-- What a write does with each row. -/
def edit : Write → Row → Edit
  | .create, row | .update, row => .save row
  | .delete, row => .remove row

/-- The answer of the store to a write, and the store afterwards. -/
def perform (w : Write) (s : Schema) (entities : List α) (store : Store) :
    Except ResourceError Unit × Store :=
  match w with
  | .create | .update =>
    ((saveEntities s entities store).1.map fun _ => (), (saveEntities s entities store).2)
  | .delete => removeEntities s entities store

/-- A write has something to fail for: an entity that cannot be written as a row, a row that is no
object, or a saved row that cannot be read back. -/
def Flawed (w : Write) (s : Schema) (entities : List α) (t : Table) : Prop :=
  (∃ cause, toRows entities = .error cause) ∨
  ∃ rows, toRows entities = .ok rows ∧
    ((∃ value ∈ rows, ∀ row, value ≠ .obj row) ∨
      w ≠ .delete ∧ ∃ cause, (ofRows ((Table.storedRows s (leadingRows rows) t).map .obj) :
        Except ResourceError (List α)) = .error cause)

/-- Writing rows leaves a table as it is: those that are saved are there already, and no row has the
key of one that is removed. -/
def Spares (w : Write) (s : Schema) (rows : List Row) (t : Table) : Prop :=
  match w with
  | .create | .update =>
    ∀ row ∈ Table.storedRows s rows t, Table.Holds s (Table.storedRows s rows t) t.rows row
  | .delete => ∀ row ∈ rows, ∀ other ∈ t.rows, row.finds s other = false

variable {w : Write} {entities : List α} {store : Store}

theorem rows_foldl_edit_eq_iff {rows : List Row} {t : Table} :
    ((rows.map w.edit).foldl (Table.edit s) t).rows = t.rows ↔ w.Spares s rows t := by
  have hsave : ((rows.map Edit.save).foldl (Table.edit s) t).rows = t.rows ↔
      ∀ row ∈ Table.storedRows s rows t, Table.Holds s (Table.storedRows s rows t) t.rows row := by
    rw [Table.rows_foldl_save]
    exact Table.foldl_overwrite_eq_iff fun _ => Table.numbered_of_mem_storedRows
  cases w with
  | create => exact hsave
  | update => exact hsave
  | delete =>
    change ((rows.map Edit.remove).foldl (Table.edit s) t).rows = t.rows ↔ _
    rw [Table.rows_foldl_remove, List.filter_eq_self]
    simp only [List.all_eq_true, Bool.not_eq_true']
    exact ⟨fun h row hrow other hother => h other hother row hrow,
      fun h other hother row hrow => h row hrow other hother⟩

theorem table_perform (w : Write) (entities : List α) (store : Store) :
    (w.perform s entities store).2.table s.table =
      ((writtenRows entities).map w.edit).foldl (Table.edit s) (store.table s.table) := by
  cases w with
  | create => exact table_saveEntities entities store
  | update => exact table_saveEntities entities store
  | delete => exact table_removeEntities entities store

theorem table_perform_of_ne (w : Write) (entities : List α) (store : Store) {name : String}
    (hne : s.table ≠ name) : (w.perform s entities store).2.table name = store.table name := by
  cases w with
  | create => exact table_saveEntities_of_ne entities store hne
  | update => exact table_saveEntities_of_ne entities store hne
  | delete => exact table_removeEntities_of_ne entities store hne

/-- **What a write leaves alone.** All rows of all tables are what they were if and only if writing
the rows that the write gets to leaves their table as it is. -/
theorem rows_perform_iff :
    (∀ name, ((w.perform s entities store).2.table name).rows = (store.table name).rows) ↔
      w.Spares s (writtenRows entities) (store.table s.table) := by
  rw [← rows_foldl_edit_eq_iff, ← table_perform]
  refine ⟨fun h => h s.table, fun h name => ?_⟩
  by_cases hname : s.table = name
  · exact hname ▸ h
  · rw [table_perform_of_ne w entities store hname]

/-- A write that fails had something to fail for. -/
theorem flawed_of_error {cause : ResourceError}
    (h : (w.perform s entities store).1 = .error cause) :
    w.Flawed s entities (store.table s.table) := by
  cases hrows : toRows entities with
  | error cause => exact .inl ⟨cause, hrows⟩
  | ok rows =>
    refine .inr ⟨rows, hrows, ?_⟩
    rcases eq_map_leadingRows_or rows with hall | hnot
    · -- all values are rows, so they are written, and only reading them back is left to fail
      have hsave : ((saveEntities s entities store).1.map fun _ => ()) = .error cause →
          ∃ cause, (ofRows ((Table.storedRows s (leadingRows rows)
            (store.table s.table)).map .obj) : Except ResourceError (List α)) = .error cause := by
        rw [fst_saveEntities (hrows.trans (congrArg Except.ok hall))]
        intro h
        generalize (ofRows _ : Except ResourceError (List α)) = found at h ⊢
        cases found with
        | error cause => exact ⟨cause, rfl⟩
        | ok es => cases h
      right
      cases w with
      | create => exact ⟨by decide, hsave h⟩
      | update => exact ⟨by decide, hsave h⟩
      | delete =>
        have hremoved : (removeEntities s entities store).1 = .ok () := by
          unfold removeEntities
          rw [hrows, hall]
          exact fst_remove _ store
        cases hremoved.symm.trans h
    · exact .inl hnot

end Write

end Store

/-! ### Writes through the memo -/

namespace Crud

open Store

variable {α : Type}

/-- Performs a write and forgets the records in its answer. -/
def write {m : Type → Type} [Monad m] [MonadStateOf (Cache α) m] (crud : Crud α)
    (backend : Backend m α) (entities : List α) : Write → m (Except ResourceError Unit)
  | .create => (Except.map fun _ => ()) <$> crud.create backend entities
  | .update => (Except.map fun _ => ()) <$> crud.update backend entities
  | .delete => crud.delete backend entities

theorem run_map_forget {σ β : Type} (x : Work σ α (Except ResourceError β)) (c : Cache α) (s : σ) :
    (((Except.map fun _ => ()) <$> x : Work σ α (Except ResourceError Unit)).run c).run s =
      ((((x.run c).run s).1.1.map fun _ => (), ((x.run c).run s).1.2), ((x.run c).run s).2) := rfl

variable [Entity α]

/-- A write through the memo is a write to the store, and a failure is reported as that of the
operation. -/
theorem run_write (crud : Crud α) (identity : Identity α) (w : Write) (entities : List α)
    (c : Cache α) (store : Store) :
    (((crud.write (stored identity) entities w).run c).run store).1.1 =
      ((w.perform identity.schema entities store).1.mapError fun cause =>
        crud.failure w.operation cause.message) ∧
    (((crud.write (stored identity) entities w).run c).run store).2 =
      (w.perform identity.schema entities store).2 := by
  cases w with
  | create =>
    rw [write, run_map_forget, run_create_stored, Write.perform]
    cases (saveEntities identity.schema entities store).1 <;> exact ⟨rfl, rfl⟩
  | update =>
    rw [write, run_map_forget, run_update_stored, Write.perform]
    cases (saveEntities identity.schema entities store).1 <;> exact ⟨rfl, rfl⟩
  | delete =>
    rw [write, run_delete_stored, Write.perform]
    cases (removeEntities identity.schema entities store).1 <;> exact ⟨rfl, rfl⟩

/-- **Failed writes.** A write on the declared side fails for an entity that cannot be written as a
row, a row that is no object, or a saved row that cannot be read back. Then the table of the type is
what the rows that the write got to make of it, and no other table has changed. So all rows are what
they were if and only if writing these rows changes nothing, which is so in particular if there are
none. -/
theorem failed_write_iff (crud : Crud α) (identity : Identity α) {w : Write} {entities : List α}
    {c c' : Cache α} {store store' : Store} {cause : ResourceError}
    (h : ((crud.write (stored identity) entities w).run c).run store =
      ((.error cause, c'), store')) :
    let s := identity.schema
    let t := store.table s.table
    w.Flawed s entities t ∧
      store'.table s.table = ((writtenRows entities).map w.edit).foldl (Table.edit s) t ∧
      (∀ name, s.table ≠ name → store'.table name = store.table name) ∧
      ((∀ name, (store'.table name).rows = (store.table name).rows) ↔
        w.Spares s (writtenRows entities) t) := by
  obtain ⟨hanswer, hstore⟩ := crud.run_write identity w entities c store
  rw [h] at hanswer hstore
  obtain rfl : store' = _ := hstore
  have hfailed : ∃ cause, (w.perform identity.schema entities store).1 = .error cause := by
    cases hdone : (w.perform identity.schema entities store).1 with
    | error cause => exact ⟨cause, rfl⟩
    | ok done =>
      rw [hdone] at hanswer
      cases hanswer
  exact ⟨Write.flawed_of_error hfailed.choose_spec, Write.table_perform w entities store,
    fun _ => Write.table_perform_of_ne w entities store, Write.rows_perform_iff⟩

/-- A store with one queue. -/
def oneQueue : Store := (Store.empty.save queues [.obj [("arn", .str "x"), ("id", .int 1)]]).2

/-- A queue is updated with what is stored of it already, together with a value that is no object.
The update fails, and all rows are what they were. -/
theorem failed_write_iff_unchanged :
    let run := ((queueCrud.write (stored queueIdentity)
      [.obj [("arn", .str "x"), ("id", .int 1)], .str "y"] .update).run Cache.empty).run oneQueue
    (∃ cause, run.1.1 = .error cause) ∧
      ∀ name, (run.2.table name).rows = (oneQueue.table name).rows := by
  intro run
  have hrun : run = ((.error _, run.1.2), run.2) := rfl
  obtain ⟨-, -, -, hiff⟩ := failed_write_iff queueCrud queueIdentity hrun
  refine ⟨⟨_, rfl⟩, hiff.mpr fun row hrow => ?_⟩
  obtain rfl : row = [("arn", .str "x"), ("id", .int 1)] := List.mem_singleton.mp hrow
  exact ⟨[("id", "1")], rfl, rfl⟩

/-- **A failed creation leaves a row behind**: the creation of a queue and of a value that is no
object fails, and then there is a queue in the store that was empty. -/
theorem failed_create_keeps_row :
    let run := ((queueCrud.write (stored queueIdentity)
      [.obj [("arn", .str "x")], .str "y"] .create).run Cache.empty).run Store.empty
    run.1.1 = .error (.operation "Queue" .db .create
        "Store error: queue: rows must be JSON objects, got \"y\"") ∧
      (Store.empty.table "queue").rows = [] ∧
      (run.2.table "queue").rows = [[("arn", .str "x"), ("id", .int 1)]] :=
  ⟨rfl, rfl, rfl⟩

end Crud

end Reconcile
