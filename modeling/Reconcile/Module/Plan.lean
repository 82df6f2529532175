import Reconcile.Module.Registry

/-!
# Plans for installing and uninstalling

Which modules to install or to uninstall, and in what order. Installing a module brings in all that
it depends on; uninstalling one is refused while an installed module that stays depends on it.

* `Registry.installPlan` lists every module after all that it depends on, and leaves out what is
  installed already.
* `Registry.uninstallPlan` lists every module before all that it depends on.
-/

namespace Reconcile.Registry

variable {μ : Type}

/-- The module of a name or a key, which has to be registered. -/
def resolve (r : Registry μ) (nameOrKey : String) : Except ModuleError (Module μ) :=
  match r.find? nameOrKey with
  | some m => .ok m
  | none => .error (.moduleNotFound nameOrKey)

/-- The modules that a module depends on. -/
def dependenciesOf (r : Registry μ) (m : Module μ) : Except ModuleError (List (Module μ)) :=
  m.dependencies.mapM fun dependency =>
    match r.find? dependency with
    | some found => .ok found
    | none => .error (.unknownDependency m.key dependency)

/-- Whether a module is among others. -/
def contains (modules : List (Module μ)) (m : Module μ) : Bool :=
  modules.any fun other => other.key == m.key

/-- The modules that are selected already, with those that are pending and all that these depend
on. The first number bounds the modules that are looked at. -/
def attach (r : Registry μ) :
    Nat → List (Module μ) → List (Module μ) → Except ModuleError (List (Module μ))
  | 0, selected, _ => .ok selected
  | _, selected, [] => .ok selected
  | fuel + 1, selected, m :: pending =>
    if contains selected m then r.attach fuel selected pending
    else
      (r.dependenciesOf m).bind fun dependencies =>
        r.attach fuel (selected ++ [m]) (dependencies.reverse ++ pending)

/-- How many modules are looked at in the worst case: those that are requested, and each dependency
of each module once. -/
def attachBound (r : Registry μ) (requested : List (Module μ)) : Nat :=
  r.listed.foldl (fun n m => n + m.dependencies.length) (requested.length + 1)

/-- The requested modules and all that they depend on, in the order of registration. -/
def closure (r : Registry μ) (requested : List (Module μ)) :
    Except ModuleError (List (Module μ)) :=
  (r.attach (r.attachBound requested) [] requested.reverse).map fun selected =>
    r.listed.filter (contains selected)

/-- The order in which to install modules with all that they depend on. -/
def installPlan (r : Registry μ) (requested installed : List String) :
    Except ModuleError (List (Module μ)) := do
  let targets ← requested.mapM r.resolve
  ModuleNode.sort (← r.closure targets) installed

/-- Uninstalling is refused for modules that are not installed. -/
def checkInstalled (targets : List (Module μ)) (installed : List String) :
    Except ModuleError Unit :=
  match targets.find? fun m => ! ModuleNode.isIn m installed with
  | some m => .error (.moduleNotInstalled m.key)
  | none => .ok ()

/-- The dependency of a module that stays on one that is to go. -/
def blockedBy? (r : Registry μ) (targets : List (Module μ)) (nameOrKey : String) :
    Option (Module μ × String) :=
  (r.find? nameOrKey).bind fun m =>
    if contains targets m then none
    else
      (m.dependencies.find? fun d => targets.any fun target => target.key == d).map fun d => (m, d)

/-- Uninstalling is refused for modules that others depend on. -/
def checkUnneeded (r : Registry μ) (targets : List (Module μ)) (installed : List String) :
    Except ModuleError Unit :=
  match installed.findSome? (r.blockedBy? targets) with
  | some (m, dependency) => .error (.stillRequired m.key dependency)
  | none => .ok ()

/-- The order in which to uninstall modules. -/
def uninstallPlan (r : Registry μ) (requested installed : List String) :
    Except ModuleError (List (Module μ)) := do
  let targets ← requested.mapM r.resolve
  checkInstalled targets installed
  r.checkUnneeded targets installed
  return (← ModuleNode.sort targets []).reverse

end Reconcile.Registry
