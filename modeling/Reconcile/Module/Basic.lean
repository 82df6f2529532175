import Reconcile.Module.Manifest
import Reconcile.Module.Migration
import Reconcile.Module.Sort
import Reconcile.Settings.Basic

/-!
# Modules

A module is what remains of a definition once it has been checked: it depends on the platform module
of its own version, unless it is the platform module itself, and has exactly one migration.

Modules carry mappers for the types of their entities. What these are is left open.
-/

namespace Reconcile

/-- What a module is made of, before it is checked. -/
structure ModuleDefinition (μ : Type) where
  manifest : Manifest
  /-- The directory that the module was read from. -/
  dir : String
  /-- The paths and texts of the migrations that were found. -/
  migrations : List (String × String)
  hooks : Hooks
  mappers : List μ
deriving Inhabited

/-- A module that has been checked. -/
structure Module (μ : Type) where
  name : String
  version : String
  /-- The keys of the modules that it depends on. -/
  dependencies : List String
  provides : Provides
  migration : Migration
  hooks : Hooks
  mappers : List μ
  dir : String
  /-- Whether it is the module that all others depend on. -/
  isPlatform : Bool
deriving Repr

variable {μ : Type}

instance : ModuleNode (Module μ) where
  name := Module.name
  version := Module.version
  dependencies := Module.dependencies

/-- The key of a module. -/
def Module.key (m : Module μ) : String := ModuleNode.key m

/-- The shown form of a module. -/
def Module.shown (m : Module μ) : String :=
  Text.shownFields "Module" [("name", Text.quoted m.name), ("version", Text.quoted m.version),
    ("dependencies", Text.bracketed (m.dependencies.map Text.quoted)),
    ("provides", m.provides.shownText), ("mappers", toString m.mappers.length)] true

/-- The module of a definition, checked against the settings. -/
def ModuleDefinition.validate (d : ModuleDefinition μ) (settings : Settings) :
    Except ModuleError (Module μ) :=
  let name := d.manifest.name
  let version := d.manifest.version.getD settings.version
  let dependencies := d.manifest.dependencies.map fun text => normalizeDependency text version
  let isPlatform := name == settings.platform
  let platform := moduleKey settings.platform version
  if ! isPlatform && ! dependencies.contains platform then
    .error (.missingPlatformDependency (moduleKey name version) platform)
  else
    (Migration.ofCandidates name d.dir d.migrations).map fun migration =>
      { name, version, dependencies, provides := d.manifest.provides, migration, hooks := d.hooks,
        mappers := d.mappers, dir := d.dir, isPlatform }

end Reconcile
