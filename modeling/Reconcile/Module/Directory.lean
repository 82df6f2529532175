import Reconcile.Files.Tree
import Reconcile.Module.Registry

/-!
# Modules in directories

A directory of modules has one directory for each module, with its manifest, a directory `migration`
for the migration and a directory `sql` for hooks. Mappers are no files; they are given by the names
of the modules, and a module takes its mappers when it is read.

`Registry.loadDirectory` reads all modules of a directory and registers them, each after those it
depends on. Modules that have been registered when an error occurs stay registered.
-/

namespace Reconcile

/-- Mappers by the names of the modules that they are for. -/
abbrev MapperSet (μ : Type) := Fields (List μ)

namespace ModuleDirectory

variable {μ : Type}

/-- The directories of modules in a directory, in the order of their names: those with a
manifest. -/
def find (files : FileTree) (root : String) : Except FileError (List String) :=
  (files.list root).map fun paths =>
    paths.filter fun path =>
      files.isDirectory path && files.isFile (Path.join path Manifest.fileName)

/-- Whether a path ends in the name of a file of SQL. -/
def isSqlPath (path : String) : Bool :=
  ((Path.pieces path).getLast?.bind Path.extension?) == some "sql"

/-- The paths of the migrations of a module, in the order of their names. -/
def migrations (files : FileTree) (dir : String) : Except FileError (List String) :=
  let path := Path.join dir "migration"
  if files.isDirectory path then
    (files.list path).map fun paths =>
      paths.filter fun path => files.isFile path && isSqlPath path
  else .ok []

/-- The names and paths of the hooks of a module. -/
def hooks (files : FileTree) (dir : String) : List (String × String) :=
  (Hooks.fileNames.map fun name => (name, Path.join (Path.join dir "sql") name)).filter
    fun (_, path) => files.isFile path

/-- The text of a file of a module. -/
def readText (files : FileTree) (path : String) : Except ModuleError String :=
  (files.readText path).mapError .file

/-- The definition of the module in a directory, without mappers. -/
def definition (files : FileTree) (dir : String) :
    Except ModuleError (ModuleDefinition μ) := do
  let manifest ← Manifest.parse (← readText files (Path.join dir Manifest.fileName))
  let paths ← (migrations files dir).mapError .file
  let migrations ← paths.mapM fun path => do return (path, ← readText files path)
  let hooks ← (hooks files dir).foldlM (fun (h : Hooks) (name, path) => do
    return h.set name (← readText files path)) .empty
  return { manifest, dir, migrations, hooks, mappers := [] }

/-- The module in a directory, and the mappers that it has not taken. -/
def load (files : FileTree) (settings : Settings) (mappers : MapperSet μ) (dir : String) :
    Except ModuleError (Module μ) × MapperSet μ :=
  match (definition files dir : Except ModuleError (ModuleDefinition μ)) with
  | .error e => (.error e, mappers)
  | .ok d =>
    let name := d.manifest.name
    let taken := (Fields.find? name mappers).getD []
    let left := mappers.filter fun field => ! decide (field.1 = name)
    (({ d with mappers := taken } : ModuleDefinition μ).validate settings, left)

/-- The modules in several directories, up to the first that cannot be read, and the mappers that
they have not taken. -/
def loadAll (files : FileTree) (settings : Settings) :
    MapperSet μ → List String → Except ModuleError (List (Module μ)) × MapperSet μ
  | mappers, [] => (.ok [], mappers)
  | mappers, dir :: dirs =>
    match load files settings mappers dir with
    | (.error e, left) => (.error e, left)
    | (.ok m, left) =>
      let (rest, left) := loadAll files settings left dirs
      (rest.map (m :: ·), left)

end ModuleDirectory

namespace Registry

variable {μ : Type}

/-- Registers the modules of the given keys in order, up to the first that cannot be registered, and
answers with the keys. A module is taken once; keys without a module are passed over. -/
def registerAll (r : Registry μ) (modules : Keyed String (Module μ)) :
    List String → Answer μ (List String)
  | [] => ⟨.ok [], r⟩
  | key :: keys =>
    match modules.find? key with
    | none => r.registerAll modules keys
    | some m =>
      match r.register m with
      | ⟨.error e, r⟩ => ⟨.error e, r⟩
      | ⟨.ok (), r⟩ =>
        let rest := r.registerAll (modules.erase key) keys
        { rest with result := rest.result.map (key :: ·) }

/-- Registers modules, each after those it depends on. Of several modules of one key the last one
is registered. -/
def registerSorted (r : Registry μ) (modules : List (Module μ)) : Answer μ (List String) :=
  match ModuleNode.sort modules [] with
  | .error e => ⟨.error e, r⟩
  | .ok sorted =>
    let byKey := modules.foldl (fun (all : Keyed String (Module μ)) m => all.put m.key m) .empty
    r.registerAll byKey (sorted.map Module.key)

/-- Reads all modules in a directory and registers them. -/
def loadDirectory (r : Registry μ) (files : FileTree) (dir : String) (mappers : MapperSet μ) :
    Answer μ (List String) × MapperSet μ :=
  match ModuleDirectory.find files dir with
  | .error e => (⟨.error (.file e), r⟩, mappers)
  | .ok dirs =>
    match ModuleDirectory.loadAll files r.settings mappers dirs with
    | (.error e, left) => (⟨.error e, r⟩, left)
    | (.ok modules, left) => (r.registerSorted modules, left)

end Registry

end Reconcile
