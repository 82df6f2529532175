import Reconcile.Files.Tree

/-!
# What can go wrong with modules

The causes for which modules cannot be read, registered, ordered or run, and the message of every
cause.
-/

namespace Reconcile

/-- Why a document is no manifest. -/
inductive ManifestFault where
  /-- A module node without a text. -/
  | moduleWithoutName
  /-- A dependency node without a text. -/
  | dependencyWithoutName
  /-- A function node without a text. -/
  | functionWithoutName
  /-- Something provided that is neither a table nor a function. -/
  | unknownEntry (name : String)
  /-- No module node, or an empty name. -/
  | noModule
  /-- The name contains the character that separates names from versions. -/
  | nameWithSeparator (name : String)
deriving DecidableEq, Repr

/-- What a manifest fault says. -/
def ManifestFault.text : ManifestFault → String
  | moduleWithoutName => "module needs a name"
  | dependencyWithoutName => "dependency needs a module name"
  | functionWithoutName => "function needs a name"
  | unknownEntry name => "unknown provides entry '" ++ name ++ "'"
  | noModule => "a module node is required"
  | nameWithSeparator name => "module name '" ++ name ++ "' must not contain '@'"

/-- A part of a migration. -/
inductive Section where
  | install
  | remove
deriving DecidableEq, Repr

/-- The word for a section. -/
def Section.word : Section → String
  | install => "install"
  | remove => "remove"

/-- The line that begins a section. -/
def Section.marker (s : Section) : String :=
  "-- migrate:" ++ s.word

/-- Why a text is no migration. -/
inductive MigrationFault where
  /-- A section begins for the second time. -/
  | repeatedMarker (part : Section)
  /-- A section is missing, or there is nothing in it. -/
  | noSection (part : Section)
deriving DecidableEq, Repr

/-- What a migration fault says. -/
def MigrationFault.text : MigrationFault → String
  | repeatedMarker part => "duplicate '" ++ part.marker ++ "'"
  | noSection part => "missing or empty " ++ part.word ++ " section"

/-- A step of the installation or the removal of a module. -/
inductive ModuleStep where
  | beforeInstall
  | install
  | afterInstall
  | beforeUninstall
  | remove
  | afterUninstall
deriving DecidableEq, Repr

/-- The word for a step. -/
def ModuleStep.text : ModuleStep → String
  | beforeInstall => "before_install"
  | install => "install"
  | afterInstall => "after_install"
  | beforeUninstall => "before_uninstall"
  | remove => "remove"
  | afterUninstall => "after_uninstall"

/-- Why something cannot be done with modules. Modules are given by their keys, where nothing else
is said. -/
inductive ModuleError where
  | missingPlatformDependency (module platform : String)
  /-- There is no migration. The module is given by its name. -/
  | migrationNotFound (module dir : String)
  /-- There are several migrations. The module is given by its name. -/
  | ambiguousMigration (module : String) (candidates : List String)
  /-- The migration cannot be read. The module is given by its name. -/
  | malformedMigration (module path : String) (fault : MigrationFault)
  | invalidManifest (fault : ManifestFault)
  /-- The text of a manifest is no document. -/
  | notADocument
  | file (error : FileError)
  /-- Modules that depend on each other in a circle; the first is repeated at the end. -/
  | circularDependency (cycle : List String)
  | unknownDependency (module dependency : String)
  | alreadyRegistered (module : String)
  | tableCollision (table module owner : String)
  | stillRequired (module dependency : String)
  /-- There is no module of a name or a key. -/
  | moduleNotFound (name : String)
  /-- A module that is to be uninstalled is not installed. -/
  | moduleNotInstalled (module : String)
  | execution (module : String) (step : ModuleStep) (cause : String)
deriving DecidableEq, Repr

/-- The message of a module error. -/
def ModuleError.message : ModuleError → String
  | missingPlatformDependency module platform =>
    "Module " ++ module ++ " must depend on " ++ platform
  | migrationNotFound module dir => "Module " ++ module ++ " has no migration file in " ++ dir
  | ambiguousMigration module candidates =>
    "Module " ++ module ++ " has more than one migration file: " ++
      String.intercalate ", " candidates
  | malformedMigration module path fault =>
    "Module " ++ module ++ " has a malformed migration: " ++ path ++ ": " ++ fault.text
  | invalidManifest fault => "Invalid module manifest: " ++ fault.text
  | notADocument => "KDL parse error: Failed to parse KDL document"
  | file error => "IO error: " ++ error.message
  | circularDependency cycle => "Circular module dependency: " ++ String.intercalate " -> " cycle
  | unknownDependency module dependency =>
    "Module " ++ module ++ " depends on " ++ dependency ++ ", which is not registered"
  | alreadyRegistered module => "Module " ++ module ++ " is already registered"
  | tableCollision table module owner =>
    "Table " ++ table ++ " of module " ++ module ++ " is already provided by " ++ owner
  | stillRequired module dependency =>
    "Cannot uninstall " ++ dependency ++ ": " ++ module ++ " still depends on it"
  | moduleNotFound name => "Module " ++ name ++ " not found"
  | moduleNotInstalled module => "Module " ++ module ++ " (not installed) not found"
  | execution module step cause => "Module " ++ module ++ " " ++ step.text ++ " failed: " ++ cause

end Reconcile
