import Reconcile.Keyed
import Reconcile.Module.Basic

/-!
# The registry of modules

A registry keeps its modules under their keys, the order in which they were registered, and for
every table the key of the module that provides it. A module can be registered once all that it
depends on is there, if none of its tables belongs to another module; a registration that fails
changes nothing.

* `Registry.find?` looks a module up by its key, or by its name alone, where the module that was
  registered first is meant.
* `Registry.ownerOf?` is the module that provides a table.
-/

namespace Reconcile

/-- The registered modules, and the settings that they were checked against. -/
structure Registry (μ : Type) where
  settings : Settings
  /-- The modules under their keys. -/
  modules : Keyed String (Module μ)
  /-- The keys in the order in which they were registered. -/
  order : List String
  /-- For every table, the key of the module that provides it. -/
  tables : Keyed String String

namespace Registry

variable {μ : Type}

/-- The registry without modules. -/
def empty (settings : Settings) : Registry μ := ⟨settings, .empty, [], .empty⟩

/-- The module of a key. -/
def get? (r : Registry μ) (key : String) : Option (Module μ) :=
  r.modules.find? key

/-- The modules in the order in which they were registered. -/
def listed (r : Registry μ) : List (Module μ) :=
  r.order.filterMap r.get?

/-- The module of a key, or the first one of a name. -/
def find? (r : Registry μ) (nameOrKey : String) : Option (Module μ) :=
  match r.get? nameOrKey with
  | some m => some m
  | none =>
    if isBareName nameOrKey then r.listed.find? fun m => m.name == nameOrKey else none

/-- The module that provides a table. -/
def ownerOf? (r : Registry μ) (table : String) : Option (Module μ) :=
  (r.tables.find? table).bind r.get?

/-- The first table of a list that belongs to a module, and the key of that module. -/
def takenTable? (r : Registry μ) (tables : List String) : Option (String × String) :=
  tables.findSome? fun table => (r.tables.find? table).map fun owner => (table, owner)

/-- Why a module cannot be registered. -/
def obstacle? (r : Registry μ) (m : Module μ) : Option ModuleError :=
  if (r.get? m.key).isSome then some (.alreadyRegistered m.key)
  else
    match m.dependencies.find? fun d => (r.find? d).isNone with
    | some dependency => some (.unknownDependency m.key dependency)
    | none =>
      (r.takenTable? m.provides.tables).map fun (table, owner) =>
        .tableCollision table m.key owner

/-- The registry with one more module. -/
def add (r : Registry μ) (m : Module μ) : Registry μ :=
  { r with
    modules := r.modules.put m.key m
    order := r.order ++ [m.key]
    tables := m.provides.tables.foldl (fun tables table => tables.put table m.key) r.tables }

/-- What something that registers modules answers, and the registry that it leaves. -/
structure Answer (μ α : Type) where
  result : Except ModuleError α
  registry : Registry μ

/-- Registers a module. -/
def register (r : Registry μ) (m : Module μ) : Answer μ Unit :=
  match r.obstacle? m with
  | some e => ⟨.error e, r⟩
  | none => ⟨.ok (), r.add m⟩

/-- Checks a definition and registers its module. -/
def registerDefinition (r : Registry μ) (d : ModuleDefinition μ) : Answer μ Unit :=
  match d.validate r.settings with
  | .error e => ⟨.error e, r⟩
  | .ok m => r.register m

end Registry

end Reconcile
