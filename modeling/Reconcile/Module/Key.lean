import Reconcile.Text.Blank

/-!
# Keys of modules

A module is known by its name and its version, written with an `@` between them. A dependency may
leave the version out; the first `@` of a text is the one that separates.
-/

namespace Reconcile

/-- The character between the name and the version of a module. -/
def versionSeparator : Char := '@'

/-- The key of a module. -/
def moduleKey (name version : String) : String :=
  name ++ String.singleton versionSeparator ++ version

/-- The name in a key, and the version where there is one. -/
def splitKey (key : String) : String × Option String :=
  match Text.cutAt? [versionSeparator] key.toList with
  | some (name, version) => (String.ofList name, some (String.ofList version))
  | none => (key, none)

/-- Whether a text is a name without a version. -/
def isBareName (key : String) : Bool :=
  (splitKey key).2.isNone

/-- A dependency with a version: the given one, unless it has one already. -/
def normalizeDependency (dependency version : String) : String :=
  if isBareName dependency then moduleKey dependency version else dependency

end Reconcile
