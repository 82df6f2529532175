import Reconcile.Error
import Reconcile.Fields
import Reconcile.Text.Blank

/-!
# Schemas and the keys derived from them

A schema names the table of an entity type, the columns that the provider identifies its entities
by, and the column that the store numbers its rows in.

The **identity key** of an entity is the texts of its cloud id columns, joined by `|`. While one of
them is not populated, the key is the text of the primary key column, and failing that the empty
text. `Schema.idFields` takes a key apart into the columns it was made of, and `Schema.generateId`
puts columns together into a key.
-/

namespace Reconcile

/-- The table of an entity type and the columns that identify its entities. -/
structure Schema where
  table : String
  /-- The columns that the provider identifies entities by, in the order of the key. -/
  cloudId : List String
  /-- The column that the store numbers rows in. -/
  primaryKey : Option String
deriving DecidableEq, Repr, Inhabited

/-- Texts of columns by the names of the columns. -/
abbrev IdFields := Fields String

namespace Schema

/-- The character between the parts of a key. -/
def separator : Char := '|'

/-- Parts joined to a key. -/
def joinKey (parts : List String) : String :=
  String.intercalate (String.singleton separator) parts

/-- Whether a key can be derived at all. -/
def hasIdentity (s : Schema) : Bool :=
  ! s.cloudId.isEmpty || s.primaryKey.isSome

/-- The texts of the given columns, provided that each of them has a text that is not empty. -/
def populated? (column : String → Option String) : List String → Option (List String)
  | [] => some []
  | name :: names =>
    match column name, populated? column names with
    | some text, some texts => if text.isEmpty then none else some (text :: texts)
    | _, _ => none

/-- The **identity key** of the entity with the given columns. -/
def entityId (s : Schema) (column : String → Option String) : String :=
  let fallback := (s.primaryKey.bind column).getD ""
  if s.cloudId.isEmpty then fallback
  else match populated? column s.cloudId with
    | some parts => joinKey parts
    | none => fallback

/-- The columns that a key stands for. A key with as many parts as there are cloud id columns gives
each of them its part. Any other key gives its last part to the primary key column, and where there
is none, its parts to the cloud id columns as far as both go. -/
def idFields (s : Schema) (id : String) : IdFields :=
  let parts := Text.splitAt separator id
  if ! s.cloudId.isEmpty && parts.length == s.cloudId.length then
    Fields.ofPairs (s.cloudId.zip parts)
  else match s.primaryKey with
    | some pk => [(pk, parts.getLastD "")]
    | none => Fields.ofPairs (s.cloudId.zip parts)

/-- The columns that a key is made of, given the fields at hand: the cloud id columns, or the
primary key column when there are none or when it is the only field. -/
def keyColumns (s : Schema) (fields : IdFields) : List String :=
  if s.cloudId.isEmpty then s.primaryKey.toList
  else match s.primaryKey with
    | some pk => if fields.length == 1 && fields.has pk then [pk] else s.cloudId
    | none => s.cloudId

/-- The key that the fields make, provided that they are exactly the columns of a key. -/
def generateId (s : Schema) (kind : String) (fields : IdFields) : Except ResourceError String :=
  let columns := s.keyColumns fields
  if fields.length != columns.length || ! columns.all fields.has then
    .error (.fieldsMismatch kind columns fields.names)
  else .ok (joinKey (columns.map fun c => (fields.find? c).getD ""))

end Schema

end Reconcile
