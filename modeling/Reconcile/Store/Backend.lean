import Reconcile.Crud.Call
import Reconcile.Store.Basic

/-!
# The store as a backend

The backend that an entity type gets on the declared side when it brings none. Entities are written
as rows of the table of their schema, and a key is looked up by the columns that it stands for.
Updating is saving.
-/

namespace Reconcile

namespace Store

variable {α : Type} [Entity α]

/-- The rows that entities are stored as. -/
def toRows (entities : List α) : Except ResourceError (List Json) :=
  entities.mapM fun e => (Entity.toRow e).mapError ResourceError.json

/-- The entities that rows hold. -/
def ofRows (rows : List Json) : Except ResourceError (List α) :=
  rows.mapM fun row => (Entity.ofRow row).mapError ResourceError.json

/-- Saves entities, and answers with the entities that the saved rows hold. -/
def saveEntities (s : Schema) (entities : List α) (store : Store) :
    Except ResourceError (List α) × Store :=
  match toRows entities with
  | .error e => (.error e, store)
  | .ok rows =>
    let (saved, store) := store.save s rows
    (saved.bind ofRows, store)

/-- The entities stored under a key, or all entities of the table. -/
def readEntities (identity : Identity α) (id : Option String) (store : Store) :
    Except ResourceError (List α) :=
  let filter := match id with
    | some id => identity.idFields id
    | none => []
  ofRows (store.find identity.schema filter)

/-- Removes the rows of entities. -/
def removeEntities (s : Schema) (entities : List α) (store : Store) :
    Except ResourceError Unit × Store :=
  match toRows entities with
  | .error e => (.error e, store)
  | .ok rows => store.remove s rows

/-- The backend that keeps entities in the store. -/
def backend {m : Type → Type} [Monad m] [MonadStateOf Store m] (identity : Identity α) :
    Backend m α where
  create entities := do
    return (← modifyGetThe Store (saveEntities identity.schema entities)).mapError (·.message)
  read id := do
    return (readEntities identity id (← getThe Store)).mapError (·.message)
  update entities := do
    return (← modifyGetThe Store (saveEntities identity.schema entities)).mapError (·.message)
  delete entities := do
    return (← modifyGetThe Store (removeEntities identity.schema entities)).mapError (·.message)

end Store

end Reconcile
