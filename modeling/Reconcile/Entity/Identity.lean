import Reconcile.Entity.Basic
import Reconcile.Entity.Schema

/-!
# Identities

How the entities of one type are told apart. By default their keys are derived from the schema. A
type may bring a key function of its own, and a codec that takes its keys apart and puts them
together again; only with a codec do keys of one's own survive being stored.
-/

namespace Reconcile

/-- Takes keys apart into columns and makes keys of columns. -/
structure IdCodec where
  idFields : String → IdFields
  /-- No key is made of fields that do not fit. -/
  generateId : IdFields → Option String

/-- How the entities of one type are told apart. -/
structure Identity (α : Type) where
  schema : Schema
  /-- A key function that replaces the derived one. -/
  custom : Option (α → String)
  codec : Option IdCodec

namespace Identity

variable {α : Type}

/-- The identity that the schema of a kind gives, provided that it names a column for it. -/
def derived (kind : String) (schema : Schema) : Except ResourceError (Identity α) :=
  if schema.hasIdentity then .ok ⟨schema, none, none⟩ else .error (.noIdentity kind)

/-- The identity with a key function of one's own. -/
def ofKey (schema : Schema) (key : α → String) : Identity α :=
  ⟨schema, some key, none⟩

/-- An identity that takes its keys apart and puts them together with a codec. -/
def withCodec (identity : Identity α) (codec : IdCodec) : Identity α :=
  { identity with codec := some codec }

/-- Whether the key function is one's own. -/
def isCustom (identity : Identity α) : Bool :=
  identity.custom.isSome

/-- Whether the columns of a key can be had from the key: always for derived keys, and with a codec
for any others. -/
def roundTrips (identity : Identity α) : Bool :=
  identity.custom.isNone || identity.codec.isSome

/-- The key of an entity. -/
def entityId [Entity α] (identity : Identity α) (e : α) : String :=
  match identity.custom with
  | some key => key e
  | none => identity.schema.entityId (Entity.column e)

/-- The columns that a key stands for. -/
def idFields (identity : Identity α) (id : String) : IdFields :=
  match identity.codec with
  | some codec => codec.idFields id
  | none => identity.schema.idFields id

/-- The key that fields make. -/
def generateId (identity : Identity α) (kind : String) (fields : IdFields) :
    Except ResourceError String :=
  match identity.codec with
  | some codec =>
    match codec.generateId fields with
    | some id => .ok id
    | none => .error (.fieldsRejected kind fields.names)
  | none => identity.schema.generateId kind fields

end Identity

end Reconcile
