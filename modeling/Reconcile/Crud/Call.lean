import Reconcile.Crud.Basic
import Reconcile.Error

/-!
# Remembered calls

The calls on one side of an entity type, put together from their phases. A `Backend` is what an
entity type brings for one side: it creates, reads, updates and deletes entities, in whatever monad
`m` its calls run, and says of its failures why they happened. The calls run in the same monad,
which has to give access to the cache; so a backend may read other entities through the cache while
it is being asked.

Every failure of a backend is reported with the kind, the side and the operation.
-/

namespace Reconcile

/-- What an entity type brings for one side. -/
structure Backend (m : Type → Type) (α : Type) where
  /-- Creates entities and answers with them as the side now holds them. An empty answer means the
  inputs as they are. -/
  create : List α → m (Except String (List α))
  /-- The entities under a key, or all entities. -/
  read : Option String → m (Except String (List α))
  /-- Changes entities and answers with them as the side now holds them. -/
  update : List α → m (Except String (List α))
  /-- Deletes entities. -/
  delete : List α → m (Except String Unit)

namespace Crud

variable {α : Type} {m : Type → Type} [Monad m] [MonadStateOf (Cache α) m]

/-- The error for a backend that failed in an operation. -/
def failure (crud : Crud α) (operation : Operation) (cause : String) : ResourceError :=
  .operation crud.type.kind crud.side operation cause

/-- Creates entities and lists their records. -/
def create (crud : Crud α) (backend : Backend m α) (entities : List α) :
    m (Except ResourceError (List Handle)) := do
  let reserved ← modifyGetThe (Cache α) (crud.reserveAll entities)
  match ← backend.create entities with
  | .error cause =>
    modifyThe (Cache α) (crud.rollBack reserved)
    return .error (crud.failure .create cause)
  | .ok created => return .ok (← modifyGetThe (Cache α) (crud.finishCreate reserved created))

/-- Reads the entity of a key. A record that is a placeholder stands for a read of the same key
that is still under way. -/
def read (crud : Crud α) (backend : Backend m α) (key : String) :
    m (Except ResourceError (Option Handle)) := do
  match ← modifyGetThe (Cache α) (crud.beginRead key) with
  | .known record => return .ok (some record)
  | .asked placeholder =>
    match ← backend.read (some key) with
    | .error cause =>
      modifyThe (Cache α) (crud.abandonRead key placeholder)
      return .error (crud.failure .read cause)
    | .ok found => return .ok (← modifyGetThe (Cache α) (crud.finishRead key placeholder found))

/-- Lists all entities. -/
def readAll (crud : Crud α) (backend : Backend m α) :
    m (Except ResourceError (List Handle)) := do
  match ← backend.read none with
  | .error cause => return .error (crud.failure .read cause)
  | .ok found => return .ok (← modifyGetThe (Cache α) (crud.mergeAll found))

/-- Updates entities and lists their records. -/
def update (crud : Crud α) (backend : Backend m α) (entities : List α) :
    m (Except ResourceError (List Handle)) := do
  match ← backend.update entities with
  | .error cause => return .error (crud.failure .update cause)
  | .ok updated => return .ok (← modifyGetThe (Cache α) (crud.mergeAll updated))

/-- Deletes entities. -/
def delete (crud : Crud α) (backend : Backend m α) (entities : List α) :
    m (Except ResourceError Unit) := do
  match ← backend.delete entities with
  | .error cause => return .error (crud.failure .delete cause)
  | .ok () =>
    modifyThe (Cache α) (crud.evictAll (entities.map crud.keyOf))
    return .ok ()

end Crud

end Reconcile
