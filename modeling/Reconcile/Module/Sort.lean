import Reconcile.Module.Error
import Reconcile.Module.Key
import Reconcile.PostOrder

/-!
# Sorting modules

Modules in the order in which they can be installed: each one after all that it depends on, and
otherwise as they were given. A dependency means the module of that key, or the first module of that
name where it has no version; one that means no given module is taken to be satisfied elsewhere.

Modules can be left out of the result. They still determine the order of the others.
-/

namespace Reconcile

/-- What has a name, a version and dependencies, which are names or keys. -/
class ModuleNode (α : Type) where
  name : α → String
  version : α → String
  dependencies : α → List String

namespace ModuleNode

variable {α : Type} [ModuleNode α]

/-- The key of a module. -/
def key (m : α) : String := moduleKey (name m) (version m)

/-- Whether a module is one of those that a list of names and keys is about. -/
def isIn (m : α) (namesOrKeys : List String) : Bool :=
  namesOrKeys.any fun text => text == key m || text == name m

/-- The position of the last module of a key. -/
def positionOfKey? (modules : List α) (k : String) : Option Nat :=
  (List.range modules.length).reverse.find? fun i => (modules[i]?).any fun m => key m == k

/-- The position of the module that a dependency means. -/
def position? (modules : List α) (dependency : String) : Option Nat :=
  match positionOfKey? modules dependency with
  | some i => some i
  | none =>
    if isBareName dependency then modules.findIdx? fun m => name m == dependency else none

/-- The positions of the modules that the module at a position depends on. -/
def successors (modules : List α) (i : Nat) : List Nat :=
  match modules[i]? with
  | some m => (dependencies m).filterMap (position? modules)
  | none => []

/-- The modules at a list of positions. -/
def atPositions (modules : List α) (positions : List Nat) : List α :=
  positions.filterMap fun i => modules[i]?

/-- The modules in the order in which they can be installed, without those that are left out. -/
def sort (modules : List α) (leftOut : List String) : Except ModuleError (List α) :=
  match Graph.postOrder (successors modules) (List.range modules.length) with
  | .error cycle => .error (.circularDependency ((atPositions modules cycle).map key))
  | .ok order => .ok ((atPositions modules order).filter fun m => ! isIn m leftOut)

end ModuleNode

end Reconcile
