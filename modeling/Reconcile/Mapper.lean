import Reconcile.Changes
import Reconcile.Entity.Identity

/-!
# Mappers

A mapper binds the two sides of an entity type together: one identity, one comparison, a backend
for each side, and the side whose state wins when the two disagree. Nothing else in the library
depends on what an entity type is.

A mapper needs a comparison and a backend for the live side. On the declared side the store serves
as the backend of last resort, provided that keys can be looked up in it: the schema has cloud id
columns, and a key function of one's own comes with a codec. `MapperParts.build` reports the first
part that is missing.
-/

namespace Reconcile

/-- How two entities are compared. -/
inductive Comparison (α : Type) where
  /-- By a yes or no. -/
  | equals (same : α → α → Bool)
  /-- Field by field. -/
  | changes (changes : α → α → Changes)

namespace Comparison

variable {α : Type}

/-- Whether two entities are equal. -/
def same : Comparison α → α → α → Bool
  | equals f, a, b => f a b
  | changes f, a, b => (f a b).isEmpty

/-- What differs between two entities. A comparison by yes or no cannot tell which fields do. -/
def diff : Comparison α → α → α → Changes
  | equals f, a, b => if f a b then .empty else .opaqueChange
  | changes f, a, b => f a b

end Comparison

/-- What serves the declared side. -/
inductive DbBackend (β : Type) where
  /-- A backend that the entity type brings. -/
  | own (backend : β)
  | store

/-- The two sides of an entity type. The type `β` stands for the backends that types bring. -/
structure Mapper (α β : Type) where
  type : EntityType
  identity : Identity α
  comparison : Comparison α
  db : DbBackend β
  cloud : β
  /-- Replaces the judgement of the backend of the live side on updates. -/
  replaceOn : Option (ReplaceOn α)
  /-- The side whose state wins. -/
  source : Side

namespace Mapper

variable {α β : Type}

/-- The name under which entities of the mapper are remembered. -/
def kind (m : Mapper α β) : String := m.type.kind

/-- The table of the mapper. -/
def table (m : Mapper α β) : String := m.identity.schema.table

/-- The shown form of a mapper. -/
def shown (m : Mapper α β) : String :=
  Text.shownFields "Mapper" [("kind", Text.quoted m.kind), ("table", Text.quoted m.table),
    ("source", capitalized m.source.text)] true

/-- The shown form of a mapper among mappers of other types. -/
def shownAsPart (m : Mapper α β) : String :=
  Text.shownFields "MapperObject" [("kind", Text.quoted m.kind), ("table", Text.quoted m.table)]
    false

/-- The shown form of one side of a mapper. -/
def shownSide (m : Mapper α β) (side : Side) : String :=
  Text.shownFields "Crud" [("kind", Text.quoted m.kind), ("side", capitalized side.text)] true

/-- Whether a difference calls for an update or a replacement on one side, where `judge` is the
judgement of the backend of that side. -/
def updateOrReplace (m : Mapper α β) (judge : Side → α → α → UpdateStrategy) (side : Side)
    (prev next : α) : UpdateStrategy :=
  match side, m.replaceOn with
  | .cloud, some r => r.classify prev next
  | side, _ => judge side prev next

end Mapper

/-- What an entity type brings for its mapper. -/
structure MapperParts (α β : Type) where
  type : EntityType
  schema : Schema
  /-- A key function that replaces the one derived from the schema. -/
  key : Option (α → String)
  codec : Option IdCodec
  comparison : Option (Comparison α)
  db : Option β
  cloud : Option β
  replaceOn : Option (ReplaceOn α)
  source : Side

namespace MapperParts

variable {α β : Type}

/-- The identity that the parts give. -/
def identity (p : MapperParts α β) : Except ResourceError (Identity α) := do
  let identity ← match p.key with
    | some key => pure (Identity.ofKey p.schema key)
    | none => Identity.derived p.type.kind p.schema
  return match p.codec with
    | some codec => identity.withCodec codec
    | none => identity

/-- What serves the declared side: the backend of the type, or else the store if it can look up the
keys. -/
def dbBackend (p : MapperParts α β) (identity : Identity α) :
    Except MissingPart (DbBackend β) :=
  match p.db with
  | some backend => .ok (.own backend)
  | none =>
    if ! identity.roundTrips then .error .dbBackendOrCodec
    else if identity.schema.cloudId.isEmpty then .error .dbBackend
    else .ok .store

/-- The mapper made of the parts, or the first reason why they do not make one. -/
def build (p : MapperParts α β) : Except ResourceError (Mapper α β) := do
  let missing := ResourceError.missingPart p.type.kind
  let identity ← p.identity
  let some comparison := p.comparison | throw (missing .comparison)
  let some cloud := p.cloud | throw (missing .cloudBackend)
  let db ← (p.dbBackend identity).mapError missing
  return ⟨p.type, identity, comparison, db, cloud, p.replaceOn, p.source⟩

end MapperParts

end Reconcile
