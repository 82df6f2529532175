import Reconcile.Proofs.Store.Calls

/-!
# The store as an ordered map

A table that is always used with one schema that names a primary key is a map from the texts of
primary keys to rows, in the order in which the keys were inserted
(`Store.OrderedMap`, `Store.orderedMap_after`). It does not matter that rows are found by comparing
texts, that a batch may save several rows of one key, or that calls fail.
-/

namespace Reconcile.Store

variable {s : Schema} {pk : String} {calls : List Call}

/-- A table is an insertion-ordered map of rows by the texts of their primary keys, with a history
of what was put and erased. -/
structure OrderedMap (s : Schema) (pk : String) (store : Store)
    (history : Keyed.History String Row) : Prop where
  /-- Every row has a primary key that is not null. -/
  keyed : ∀ row ∈ (store.table s.table).rows, row.lacks pk = false
  /-- No two primary keys have the same text. -/
  distinct : ((store.table s.table).rows.map fun row => row.column? pk).Nodup
  /-- Each row of a batch, be there others before it or not, is put under its key, which is the one
  it came with if it has one. -/
  saves : ∀ (earlier : List Row) (row : Row), ∃ saved stored key,
    (store.save s (earlier.map .obj)).1 = .ok saved ∧
    (store.save s ((earlier ++ [row]).map .obj)).1 = .ok (saved ++ [.obj stored]) ∧
    (row.lacks pk = false → stored = row) ∧ stored.column? pk = some key ∧
    Table.Puts pk key stored ((store.save s (earlier.map .obj)).2.table s.table).rows
      ((store.save s ((earlier ++ [row]).map .obj)).2.table s.table).rows
  /-- Each row of a batch that has a key takes out the row of this key and no other. -/
  removes : ∀ (earlier : List Row) (row : Row) key, row.column? pk = some key →
    Table.Takes pk key ((store.remove s (earlier.map .obj)).2.table s.table).rows
      ((store.remove s ((earlier ++ [row]).map .obj)).2.table s.table).rows
  /-- Each row of a batch that has no key takes out the rows of its cloud id and no others. -/
  clears : ∀ (earlier : List Row) (row : Row), row.lacks pk = true →
    ((store.remove s ((earlier ++ [row]).map .obj)).2.table s.table).rows =
      ((store.remove s (earlier.map .obj)).2.table s.table).rows.filter fun other =>
        ¬ row.SameCloudId s other
  /-- At most one row is found under a key. -/
  unique : ∀ key, (store.find s [(pk, key)]).length ≤ 1
  /-- It is the row that was put last, unless the key was erased since. -/
  finds : ∀ key value, value ∈ store.find s [(pk, key)] ↔ ∃ row before rest, value = .obj row ∧
    history = before ++ .put key row :: rest ∧ ∀ c ∈ rest, c.key ≠ key
  /-- All rows are listed in the order in which their keys were inserted. -/
  lists : ∃ (keys : List String) (places : List Nat), places.Pairwise (· < ·) ∧
    List.Forall₂ (Keyed.InsertedAt history) keys places ∧
    List.Forall₂ (fun value key => ∃ row, value = .obj row ∧ Row.column? row pk = some key)
      (store.find s []) keys

/-- Saving a row after others. -/
theorem exists_save (hpk : s.primaryKey = some pk) (store : Store) (earlier : List Row)
    (row : Row) : ∃ saved stored key,
      (store.save s (earlier.map .obj)).1 = .ok saved ∧
      (store.save s ((earlier ++ [row]).map .obj)).1 = .ok (saved ++ [.obj stored]) ∧
      (row.lacks pk = false → stored = row) ∧ stored.column? pk = some key ∧
      Table.Puts pk key stored ((store.save s (earlier.map .obj)).2.table s.table).rows
        ((store.save s ((earlier ++ [row]).map .obj)).2.table s.table).rows := by
  obtain ⟨saved, hsaved, hall⟩ := saveRows_concat (s := s) earlier row (store.table s.table)
  obtain ⟨key, hkey, hputs⟩ :=
    Table.puts_save hpk (saveRows s (earlier.map .obj) (store.table s.table)).2 row
  refine ⟨saved, _, key, hsaved, congrArg Prod.fst hall, fun hrow => ?_, hkey, ?_⟩
  · rw [Table.fst_save hpk, Row.numbered_of_not_lacks hrow]
  · have hbefore : (store.save s (earlier.map .obj)).2.table s.table =
        (saveRows s (earlier.map .obj) (store.table s.table)).2 := table_setTable _ _ _
    have hafter : (store.save s ((earlier ++ [row]).map .obj)).2.table s.table =
        (saveRows s ((earlier ++ [row]).map .obj) (store.table s.table)).2 := table_setTable _ _ _
    rw [hbefore, hafter, hall]
    exact hputs

theorem OneSchema.concat (hcalls : OneSchema s calls) (call : Call) (hcall : call.schema = s) :
    OneSchema s (calls ++ [call]) :=
  List.forall_mem_append.mpr ⟨hcalls, List.forall_mem_singleton.mpr fun _ => hcall⟩

/-- Removing a row after others. -/
theorem table_remove_concat (store : Store) (earlier : List Row) (row : Row) :
    (store.remove s ((earlier ++ [row]).map .obj)).2.table s.table =
      ((store.remove s (earlier.map .obj)).2.table s.table).remove s row := by
  rw [table_remove, table_remove, leadingRows_map_obj, leadingRows_map_obj, List.map_append,
    List.map_singleton, List.foldl_concat]
  rfl

theorem takes_remove (hpk : s.primaryKey = some pk) (hcalls : OneSchema s calls)
    (earlier : List Row) {row : Row} {key : String} (hkey : row.column? pk = some key) :
    Table.Takes pk key (((after calls).remove s (earlier.map .obj)).2.table s.table).rows
      (((after calls).remove s ((earlier ++ [row]).map .obj)).2.table s.table).rows := by
  -- what was removed before in the batch might as well have been removed by a call of its own
  have hshows := shows_after hpk (hcalls.concat (.remove s (earlier.map .obj)) rfl)
  rw [after, List.foldl_concat] at hshows
  rw [table_remove_concat]
  exact hshows.takes_remove hpk hkey

theorem rows_remove_of_lacks (hpk : s.primaryKey = some pk) (store : Store) (earlier : List Row)
    {row : Row} (hrow : row.lacks pk = true) :
    ((store.remove s ((earlier ++ [row]).map .obj)).2.table s.table).rows =
      ((store.remove s (earlier.map .obj)).2.table s.table).rows.filter fun other =>
        ¬ row.SameCloudId s other := by
  rw [table_remove_concat, Table.remove_eq hpk]
  simp only [Row.SameKey, Row.column?_eq_none_iff.mpr hrow]

/-- The row of a key is what the ledger has under it. -/
theorem find_key_eq (hpk : s.primaryKey = some pk) (hcalls : OneSchema s calls) (key : String) :
    (after calls).find s [(pk, key)] = ((ledger s pk calls).rows.find? key).toList.map .obj := by
  rw [find, (shows_after hpk hcalls).find_eq]

/-- The rows of a table are those of the ledger. -/
theorem find_nil_eq (hpk : s.primaryKey = some pk) (hcalls : OneSchema s calls) :
    (after calls).find s [] = (ledger s pk calls).rows.values.map .obj := by
  have hall : ((after calls).table s.table).find [] = ((after calls).table s.table).rows :=
    List.filter_eq_self.mpr fun _ _ => rfl
  rw [find, hall, (shows_after hpk hcalls).rows_eq]

/-- What is found under a key was put there last. -/
theorem mem_find_key_iff (hpk : s.primaryKey = some pk) (hcalls : OneSchema s calls) {key : String}
    {value : Json} : value ∈ (after calls).find s [(pk, key)] ↔
      ∃ row before rest, value = .obj row ∧
        (ledger s pk calls).history = before ++ .put key row :: rest ∧ ∀ c ∈ rest, c.key ≠ key := by
  rw [find_key_eq hpk hcalls, List.mem_map]
  constructor
  · rintro ⟨row, hrow, rfl⟩
    obtain ⟨before, rest, hsplit⟩ := Keyed.find?_ofHistory_iff.mp (Option.mem_toList.mp hrow)
    exact ⟨row, before, rest, rfl, hsplit⟩
  · rintro ⟨row, before, rest, rfl, hsplit⟩
    have hrow := Keyed.find?_ofHistory_iff.mpr ⟨before, rest, hsplit⟩
    exact ⟨row, Option.mem_toList.mpr hrow, rfl⟩

/-- Each row is listed at the place of its key. -/
theorem forall₂_find_nil (hpk : s.primaryKey = some pk) (hcalls : OneSchema s calls) :
    List.Forall₂ (fun value key => ∃ row, value = .obj row ∧ Row.column? row pk = some key)
      ((after calls).find s []) (ledger s pk calls).rows.keys := by
  rw [find_nil_eq hpk hcalls, Keyed.values, Keyed.keys, List.forall₂_map_left_iff,
    List.forall₂_map_left_iff, List.forall₂_map_right_iff, List.forall₂_same]
  exact fun pair hpair => ⟨pair.2, rfl, (shows_after hpk hcalls).column?_eq pair hpair⟩

/-- **Tables are insertion-ordered maps**, after any calls. -/
theorem orderedMap_after (hpk : s.primaryKey = some pk) (hcalls : OneSchema s calls) :
    OrderedMap s pk (after calls) (ledger s pk calls).history where
  keyed _ := (shows_after hpk hcalls).lacks_eq_false
  distinct := (shows_after hpk hcalls).nodup
  saves := exists_save hpk _
  removes earlier _ _ hkey := takes_remove hpk hcalls earlier hkey
  clears earlier _ hrow := rows_remove_of_lacks hpk _ earlier hrow
  unique key := by
    rw [find_key_eq hpk hcalls, List.length_map]
    exact Option.length_toList_le
  finds _ _ := mem_find_key_iff hpk hcalls
  lists := by
    obtain ⟨places, hsorted, hplaces⟩ := Keyed.exists_places (ledger s pk calls).history
    exact ⟨_, places, hsorted, hplaces, forall₂_find_nil hpk hcalls⟩

/-- A table of queues, which the provider knows by their addresses. -/
def queues : Schema := ⟨"queue", ["arn"], some "id"⟩

/-- Calls for two tables. A batch fails at its third value, a row is removed by its address, and a
row is saved whose key is a text for a number. -/
def mixed : List Call :=
  [.save queues [.ofFields [("arn", .str "x")], .ofFields [("id", .int 7), ("arn", .str "y")],
      .str "z", .ofFields [("arn", .str "z")]],
    .save { queues with table := "topic", primaryKey := none } [.ofFields [("arn", .str "x")]],
    .find queues [("id", "1")],
    .remove queues [.ofFields [("arn", .str "x")]],
    .save queues [.ofFields [("id", .str "7"), ("arn", .str "w")], .ofFields [("arn", .str "x")]]]

/-- The row of key 7 is replaced in place, and the one that was removed comes back at the end. -/
theorem orderedMap_after_mixed :
    queues.primaryKey = some "id" ∧ OneSchema queues mixed ∧
    OrderedMap queues "id" (after mixed) (ledger queues "id" mixed).history ∧
    ((after mixed).find queues []).map Json.render =
      ["\x7b\"arn\":\"w\",\"id\":\"7\"\x7d", "\x7b\"arn\":\"x\",\"id\":2\x7d"] := by
  have hcalls : OneSchema queues mixed := by
    unfold OneSchema
    decide
  exact ⟨rfl, hcalls, orderedMap_after rfl hcalls, by decide +kernel⟩

end Reconcile.Store
