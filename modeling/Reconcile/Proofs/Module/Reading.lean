import Reconcile.Proofs.Module.Checked

/-!
# Modules that are read from directories

A module takes its mappers when it is read, so what is read from a directory hangs on the mappers
that the modules before it have left. Everything else is declared by the directory alone
(`ModuleDirectory.fst_load`). So several directories can be read exactly if each of them declares a
module (`ModuleDirectory.fst_loadAll`), and in another order the same modules are read, up to their
mappers (`ModuleDirectory.exists_loadAll_of_perm`).
-/

namespace Reconcile

variable {μ : Type}

/-! ### Mappers -/

/-- A module without its mappers. -/
def Module.bare (m : Module μ) : Module μ := { m with mappers := [] }

namespace Module

@[simp]
theorem key_bare (m : Module μ) : m.bare.key = m.key := rfl

@[simp]
theorem dependencies_bare (m : Module μ) : m.bare.dependencies = m.dependencies := rfl

@[simp]
theorem provides_bare (m : Module μ) : m.bare.provides = m.provides := rfl

end Module

/-- Checking a definition passes its mappers on. -/
theorem ModuleDefinition.map_bare_validate (d : ModuleDefinition μ) (settings : Settings) :
    (d.validate settings).map Module.bare =
      ({ d with mappers := [] } : ModuleDefinition μ).validate settings := by
  unfold validate
  simp only
  split_ifs
  · rfl
  · cases Migration.ofCandidates d.manifest.name d.dir d.migrations <;> rfl

namespace ModuleDirectory

variable {files : FileTree} {settings : Settings} {mappers left : MapperSet μ}
  {dirs dirs' : List String} {modules : List (Module μ)}

/-- The module that a directory declares: the one that is read when there are no mappers. -/
def declared (files : FileTree) (settings : Settings) (dir : String) :
    Except ModuleError (Module μ) :=
  (load files settings [] dir).1

/-- What is read from a directory is what it declares, up to the mappers. -/
theorem fst_load (files : FileTree) (settings : Settings) (mappers : MapperSet μ) (dir : String) :
    (load files settings mappers dir).1.map Module.bare = declared files settings dir := by
  unfold declared load
  cases (definition files dir : Except ModuleError (ModuleDefinition μ)) with
  | error e => rfl
  | ok d => exact ModuleDefinition.map_bare_validate _ settings

/-- What is read from several directories is what they declare, up to the mappers. -/
theorem fst_loadAll (files : FileTree) (settings : Settings) (mappers : MapperSet μ)
    (dirs : List String) :
    (loadAll files settings mappers dirs).1.map (List.map Module.bare) =
      dirs.mapM (declared files settings) := by
  induction dirs generalizing mappers with
  | nil => rfl
  | cons dir dirs ih =>
    have hfirst := fst_load files settings mappers dir
    rw [List.mapM_cons]
    unfold loadAll
    rcases hload : load files settings mappers dir with ⟨e | m, left⟩
    · rw [← hfirst, hload]
      rfl
    · rw [← hfirst, hload, ← ih left]
      change Except.map _ (Except.map _ (loadAll files settings left dirs).1) = _
      cases (loadAll files settings left dirs).1 <;> rfl

/-- The modules that are read are those that the directories declare. -/
theorem mapM_declared_of_loadAll (h : loadAll files settings mappers dirs = (.ok modules, left)) :
    dirs.mapM (declared files settings) = .ok (modules.map Module.bare) := by
  rw [← fst_loadAll files settings mappers, h]
  rfl

theorem exists_loadAll_of_declared {found : List (Module μ)}
    (h : dirs.mapM (declared files settings) = .ok found) (mappers : MapperSet μ) :
    ∃ modules left, loadAll files settings mappers dirs = (.ok modules, left) ∧
      modules.map Module.bare = found := by
  rw [← fst_loadAll files settings mappers] at h
  obtain ⟨modules, hmodules, hbare⟩ := exists_of_map_eq_ok h
  exact ⟨modules, (loadAll files settings mappers dirs).2, Prod.ext hmodules rfl, hbare⟩

/-- **Reading in any order**: where all directories declare modules, these are read, in whatever
order the directories are listed. -/
theorem exists_loadAll_of_perm {found : List (Module μ)} (hperm : dirs'.Perm dirs)
    (h : dirs.mapM (declared files settings) = .ok found) (mappers : MapperSet μ) :
    ∃ modules left, loadAll files settings mappers dirs' = (.ok modules, left) ∧
      (modules.map Module.bare).Perm found := by
  obtain ⟨found', hfound', hperm'⟩ := exists_mapM_of_perm hperm h
  obtain ⟨modules, left, hload, rfl⟩ := exists_loadAll_of_declared hfound' mappers
  exact ⟨modules, left, hload, hperm'⟩

/-- Without mappers, the modules that are read are those that the directories declare. -/
theorem loadAll_nil (files : FileTree) (settings : Settings) (dirs : List String) :
    (loadAll files settings [] dirs : Except ModuleError (List (Module μ)) × MapperSet μ) =
      (dirs.mapM (declared files settings), []) := by
  induction dirs with
  | nil => rfl
  | cons dir dirs ih =>
    have hload : (load files settings [] dir : Except ModuleError (Module μ) × MapperSet μ) =
        (declared files settings dir, []) := by
      refine Prod.ext rfl ?_
      unfold load
      cases (definition files dir : Except ModuleError (ModuleDefinition μ)) <;> rfl
    rw [List.mapM_cons]
    unfold loadAll
    rw [hload]
    cases (declared files settings dir : Except ModuleError (Module μ)) with
    | error e => rfl
    | ok m =>
      simp only [ih]
      cases dirs.mapM (declared files settings : String → Except ModuleError (Module μ)) <;> rfl

end ModuleDirectory

end Reconcile
