import Reconcile.Mapper
import Reconcile.Text.Blank

/-!
# Scripted entity types

Entity types described by data, for running mappers without a provider. Any JSON value is an entity
of such a type, and its columns are those of a row. A value that has the field `unserializable` set
to true cannot be written as a row, and a row with the field `corrupt` set to true cannot be read.

A `TypeSpec` says what the type brings for its mapper: keys and codecs by a list of columns and a
separator, comparisons by a list of columns, and for each side the description of a scripted
backend.
-/

namespace Reconcile

/-- Whether a field of a JSON value is set to true. -/
def Json.isSet (j : Json) (name : String) : Bool :=
  match j.field? name with
  | some (.bool b) => b
  | _ => false

instance : Entity Json where
  column := Json.column?
  toRow e := if e.isSet "unserializable" then .error "unserializable row" else .ok e
  ofRow row := if row.isSet "corrupt" then .error "corrupt row" else .ok row

namespace Scenario

/-- Keys that are texts of columns with a separator between them. -/
structure ColumnKey where
  columns : List String
  separator : String
deriving DecidableEq, Repr, Inhabited

namespace ColumnKey

/-- The key of an entity. A column without text counts as empty. -/
def keyOf (k : ColumnKey) (e : Json) : String :=
  String.intercalate k.separator (k.columns.map fun c => (e.column? c).getD "")

/-- Cuts a list before and after every element, as when cutting at an empty separator. -/
def singles (s : List α) : List (List α) :=
  [] :: s.map (fun x => [x]) ++ [[]]

/-- Cuts a list at every place where `mark` stands, at most `fuel` times. -/
def pieces [BEq α] (mark : List α) : Nat → List α → List (List α)
  | 0, s => [s]
  | fuel + 1, s =>
    match Text.cutAt? mark s with
    | some (before, after) => before :: pieces mark fuel after
    | none => [s]

/-- The parts of a key between the separators. -/
def split (k : ColumnKey) (id : String) : List String :=
  let s := id.toList
  let cut := if k.separator.isEmpty then singles s else pieces k.separator.toList s.length s
  cut.map String.ofList

/-- The columns that a key stands for: none, unless it has as many parts as there are columns. -/
def idFields (k : ColumnKey) (id : String) : IdFields :=
  let parts := k.split id
  if parts.length = k.columns.length then Fields.ofPairs (k.columns.zip parts) else []

/-- The key that fields make, provided that no column is missing. -/
def generateId (k : ColumnKey) (fields : IdFields) : Option String :=
  (k.columns.mapM fields.find?).map (String.intercalate k.separator)

/-- The codec for such keys. -/
def codec (k : ColumnKey) : IdCodec :=
  ⟨k.idFields, k.generateId⟩

end ColumnKey

/-- A column whose text names an entity of another type. -/
structure Reference where
  column : String
  target : EntityType
  /-- Further columns whose texts belong to the key of the other entity. -/
  suffix : List String
deriving DecidableEq, Repr

/-- The key of the entity that a row refers to, where the column has a text. -/
def Reference.keyIn? (r : Reference) (row : Json) : Option String :=
  (row.column? r.column).map fun text =>
    String.intercalate "|" (text :: r.suffix.map fun c => (row.column? c).getD "")

/-- How a scripted backend behaves. -/
structure BackendSpec where
  /-- Columns that creation fills in, with a template in which `{n}` stands for a running
  number. -/
  assign : List (String × String)
  references : List Reference
  /-- Whether the references of inputs are resolved before they are created. -/
  resolveInputs : Bool
  /-- Columns that can only be changed by a replacement. -/
  replaceColumns : List String
deriving Inhabited

/-- The judgement of a scripted backend on an update. -/
def BackendSpec.judge (spec : BackendSpec) (prev next : Json) : UpdateStrategy :=
  if spec.replaceColumns.any fun c => prev.fieldOrNull c != next.fieldOrNull c then .replace
  else .update

/-- What differs between two entities in the texts of the given columns. -/
def columnChanges (columns : List String) (a b : Json) : Changes :=
  columns.foldl (fun changes c => changes.diff c (a.column? c) (b.column? c)) .empty

/-- Whether two entities have the same values in the given columns. -/
def sameColumns (columns : List String) (a b : Json) : Bool :=
  columns.all fun c => a.fieldOrNull c == b.fieldOrNull c

/-- A scripted entity type. -/
structure TypeSpec where
  type : EntityType
  schema : Schema
  key : Option ColumnKey
  codec : Option ColumnKey
  /-- The columns of a comparison by yes or no. -/
  equals : Option (List String)
  /-- The columns of a comparison field by field, which takes precedence. -/
  changes : Option (List String)
  /-- Whether the type brings a backend for the live side. -/
  cloud : Bool
  /-- Whether the type brings a backend for the declared side. -/
  db : Bool
  /-- The immutable columns and the compared ones. -/
  replaceOn : Option (List String × List String)
  source : Side
  backend : BackendSpec

/-- A mapper whose backends are scripted. -/
abbrev ScriptedMapper := Mapper Json BackendSpec

/-- The mapper of a scripted entity type. -/
def TypeSpec.mapper (spec : TypeSpec) : Except ResourceError ScriptedMapper :=
  let parts : MapperParts Json BackendSpec :=
    { type := spec.type
      schema := spec.schema
      key := spec.key.map ColumnKey.keyOf
      codec := spec.codec.map ColumnKey.codec
      comparison :=
        match spec.changes, spec.equals with
        | some columns, _ => some (.changes (columnChanges columns))
        | none, some columns => some (.equals (sameColumns columns))
        | none, none => none
      db := if spec.db then some spec.backend else none
      cloud := if spec.cloud then some spec.backend else none
      replaceOn := spec.replaceOn.map fun (immutable, columns) =>
        ⟨immutable, columnChanges columns⟩
      source := spec.source }
  parts.build

/-- The judgement of the backends of a mapper on an update. The store always updates in place. -/
def judge (m : ScriptedMapper) (side : Side) (prev next : Json) : UpdateStrategy :=
  match side, m.db with
  | .cloud, _ => m.cloud.judge prev next
  | .db, .own spec => spec.judge prev next
  | .db, .store => .update

end Scenario

end Reconcile
