import Reconcile.Module.Plan

/-!
# Running modules

Installing a module runs the install section of its migration, removing it the remove section, each
between two hooks. A runner takes one text of SQL at a time; the first one that fails ends the run.
-/

namespace Reconcile

/-- What runs SQL. The answer is the reason of a failure. -/
abbrev SqlRunner := String → Option String

/-- The runner that fails on every text in which the mark occurs, if there is a mark. -/
def SqlRunner.failingOn (mark : Option String) : SqlRunner := fun sql =>
  match mark.bind fun mark => Text.cutAt? mark.toList sql.toList with
  | some _ => some ("cannot run: " ++ sql)
  | none => none

/-- What was run, and the error that ended it. -/
structure Execution where
  executed : List String
  error : Option ModuleError
deriving Repr

namespace Execution

/-- Runs the steps of a module in order. -/
def runSteps (runner : SqlRunner) (module : String) : List (ModuleStep × String) → Execution
  | [] => ⟨[], none⟩
  | (step, sql) :: rest =>
    match runner sql with
    | some cause => ⟨[], some (.execution module step cause)⟩
    | none =>
      let run := runSteps runner module rest
      { run with executed := sql :: run.executed }

/-- Runs modules in order. -/
def runModules {μ : Type} (runner : SqlRunner) (steps : Module μ → List (ModuleStep × String)) :
    List (Module μ) → Execution
  | [] => ⟨[], none⟩
  | m :: rest =>
    let run := runSteps runner m.key (steps m)
    match run.error with
    | some error => ⟨run.executed, some error⟩
    | none =>
      let more := runModules runner steps rest
      ⟨run.executed ++ more.executed, more.error⟩

/-- Runs the modules of a plan in order, if there is one. -/
def runPlan {μ : Type} (runner : SqlRunner) (steps : Module μ → List (ModuleStep × String)) :
    Except ModuleError (List (Module μ)) → Execution
  | .error error => ⟨[], some error⟩
  | .ok modules => runModules runner steps modules

end Execution

namespace Module

variable {μ : Type}

/-- A step for each hook that is there. -/
def hookStep (step : ModuleStep) (hook : Option String) : List (ModuleStep × String) :=
  hook.toList.map fun sql => (step, sql)

/-- The steps that install a module. -/
def installSteps (m : Module μ) : List (ModuleStep × String) :=
  hookStep .beforeInstall m.hooks.beforeInstall ++ [(.install, m.migration.install)] ++
    hookStep .afterInstall m.hooks.afterInstall

/-- The steps that remove a module. -/
def removeSteps (m : Module μ) : List (ModuleStep × String) :=
  hookStep .beforeUninstall m.hooks.beforeUninstall ++ [(.remove, m.migration.remove)] ++
    hookStep .afterUninstall m.hooks.afterUninstall

end Module

namespace Registry

variable {μ : Type}

/-- Installs modules with all that they depend on. -/
def install (r : Registry μ) (runner : SqlRunner) (requested installed : List String) : Execution :=
  Execution.runPlan runner Module.installSteps (r.installPlan requested installed)

/-- Uninstalls modules. -/
def uninstall (r : Registry μ) (runner : SqlRunner) (requested installed : List String) :
    Execution :=
  Execution.runPlan runner Module.removeSteps (r.uninstallPlan requested installed)

end Registry

end Reconcile
