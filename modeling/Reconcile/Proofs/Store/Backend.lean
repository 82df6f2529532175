import Reconcile.Proofs.Crud.Transparent
import Reconcile.Proofs.Store.OrderedMap
import Reconcile.Scenario.Spec
import Reconcile.Store.Backend

/-!
# The store behind the memo

What the calls on the declared side of an entity type come to when the store serves as its backend:
their phases on the cache, and in between what the store does with rows. The store knows nothing of
the cache, so no other call can come in between.
-/

namespace Reconcile

variable {α : Type} [Entity α] {s : Schema} {entities : List α}

/-! ### Entities in the store -/

namespace Table

/-- Rows as they are stored, when they are saved one after the other. -/
def storedRows (s : Schema) : List Row → Table → List Row
  | [], _ => []
  | row :: rest, t => (t.save s row).1 :: storedRows s rest (t.save s row).2

end Table

namespace Store

/-- The rows that a write gets to: none if some entity cannot be written as a row, and otherwise the
rows up to the first value that is none. -/
def writtenRows (entities : List α) : List Row :=
  match toRows entities with
  | .error _ => []
  | .ok rows => leadingRows rows

/-- A batch consists of rows, or has a value that is none. -/
theorem eq_map_leadingRows_or (rows : List Json) :
    rows = (leadingRows rows).map .obj ∨ ∃ value ∈ rows, ∀ row, value ≠ .obj row := by
  induction rows with
  | nil => exact .inl rfl
  | cons value rest ih =>
    by_cases hvalue : ∀ row, value ≠ .obj row
    · exact .inr ⟨value, List.mem_cons_self, hvalue⟩
    · obtain ⟨row, hrow⟩ := not_forall_not.mp hvalue
      subst hrow
      rcases ih with hrest | ⟨other, hother, hnot⟩
      · exact .inl (congrArg _ hrest)
      · exact .inr ⟨other, List.mem_cons_of_mem _ hother, hnot⟩

/-- A batch that is saved completely is answered with its rows as they are stored. -/
theorem fst_saveRows (rows : List Row) (t : Table) :
    (saveRows s (rows.map .obj) t).1 = .ok ((Table.storedRows s rows t).map .obj) := by
  induction rows generalizing t with
  | nil => rfl
  | cons row rest ih =>
    rw [List.map_cons, saveRows_obj, ih]
    rfl

/-- Entities whose rows are all saved are answered with what these rows hold. -/
theorem fst_saveEntities {rows : List Row} (hrows : toRows entities = .ok (rows.map .obj))
    (store : Store) :
    (saveEntities s entities store).1 =
      ofRows ((Table.storedRows s rows (store.table s.table)).map .obj) := by
  unfold saveEntities
  rw [hrows]
  change (saveRows s (rows.map .obj) (store.table s.table)).1.bind ofRows = _
  rw [fst_saveRows]
  rfl

theorem table_saveEntities (entities : List α) (store : Store) :
    (saveEntities s entities store).2.table s.table =
      ((writtenRows entities).map Edit.save).foldl (Table.edit s) (store.table s.table) := by
  unfold saveEntities writtenRows
  cases toRows entities with
  | error cause => rfl
  | ok rows => exact table_save rows store

/-- Entities are saved in the table of their schema only. -/
theorem table_saveEntities_of_ne (entities : List α) (store : Store) {name : String}
    (hne : s.table ≠ name) :
    (saveEntities s entities store).2.table name = store.table name := by
  unfold saveEntities
  cases toRows entities with
  | error cause => rfl
  | ok rows => exact table_save_of_ne rows store hne

/-- Rows are removed without fail. -/
theorem fst_remove (rows : List Row) (store : Store) :
    (store.remove s (rows.map .obj)).1 = .ok () := by
  have hrows : ∀ t, (removeRows s (rows.map .obj) t).1 = .ok () := by
    induction rows with
    | nil => exact fun t => rfl
    | cons row rest ih => exact fun t => ih (t.remove s row)
  unfold remove
  cases store.tables.find? s.table with
  | none => rfl
  | some t => exact hrows t

theorem table_removeEntities (entities : List α) (store : Store) :
    (removeEntities s entities store).2.table s.table =
      ((writtenRows entities).map Edit.remove).foldl (Table.edit s) (store.table s.table) := by
  unfold removeEntities writtenRows
  cases toRows entities with
  | error cause => rfl
  | ok rows => exact table_remove rows store

/-- Entities are removed from the table of their schema only. -/
theorem table_removeEntities_of_ne (entities : List α) (store : Store) {name : String}
    (hne : s.table ≠ name) :
    (removeEntities s entities store).2.table name = store.table name := by
  unfold removeEntities
  cases toRows entities with
  | error cause => rfl
  | ok rows => exact table_remove_of_ne rows store hne

end Store

/-! ### Calls -/

namespace Crud

open Store

/-- The declared side of an entity type whose entities are told apart by an identity. -/
def declared (type : EntityType) (identity : Identity α) : Crud α :=
  ⟨type, .db, identity.entityId⟩

/-- The store as a backend of calls that carry the cache along. -/
abbrev stored (identity : Identity α) : Backend (Work Store α) α :=
  Store.backend identity

variable (crud : Crud α) (identity : Identity α) (c : Cache α) (store : Store)

theorem run_create_stored (entities : List α) :
    ((crud.create (stored identity) entities).run c).run store =
      (crud.endCreate (crud.reserveAll entities c).1
          ((saveEntities identity.schema entities store).1.mapError (·.message))
          (crud.reserveAll entities c).2,
        (saveEntities identity.schema entities store).2) :=
  run_create_apart crud (Store.backend identity) entities c store

theorem run_read_stored (id : String) :
    ((crud.read (stored identity) id).run c).run store = match crud.beginRead id c with
      | (.known h, c) => ((.ok (some h), c), store)
      | (.asked p, c) =>
        (crud.endRead id p ((readEntities identity (some id) store).mapError (·.message)) c,
          store) :=
  run_read_apart crud (Store.backend identity) id c store

theorem run_update_stored (entities : List α) :
    ((crud.update (stored identity) entities).run c).run store =
      (crud.endMerge .update
          ((saveEntities identity.schema entities store).1.mapError (·.message)) c,
        (saveEntities identity.schema entities store).2) :=
  run_update_apart crud (Store.backend identity) entities c store

theorem run_delete_stored (entities : List α) :
    ((crud.delete (stored identity) entities).run c).run store =
      (crud.endDelete (entities.map crud.keyOf)
          ((removeEntities identity.schema entities store).1.mapError (·.message)) c,
        (removeEntities identity.schema entities store).2) :=
  run_delete_apart crud (Store.backend identity) entities c store

/-- The identity of queues: their addresses, and until they have one, their numbers. -/
def queueIdentity : Identity Json := ⟨queues, none, none⟩

/-- The declared side of queues. -/
def queueCrud : Crud Json := declared ⟨"Queue", "Queue"⟩ queueIdentity

end Crud

end Reconcile
