import Reconcile.Module.Directory
import Reconcile.Proofs.Except
import Reconcile.Proofs.Module.Key

/-!
# Checked modules

What is known of a module once its definition has been checked (`Module.Checked`): its dependencies
are keys, and the key of the platform module of its version is one of them, unless it is the
platform module itself.

Checking does not look at the separator in names. Reading a manifest does: modules that come from
directories have names without separators (`ModuleDirectory.checked_loadAll`).
-/

namespace Reconcile

variable {μ : Type} {settings : Settings} {m : Module μ}

/-- What is known of a module that has been checked. -/
structure Module.Checked (settings : Settings) (m : Module μ) : Prop where
  /-- Dependencies are keys. -/
  versioned : ∀ d ∈ m.dependencies, isBareName d = false
  isPlatform_iff : m.isPlatform = true ↔ m.name = settings.platform
  /-- Modules depend on the key of the platform module of their version. -/
  platform : m.isPlatform = false → moduleKey settings.platform m.version ∈ m.dependencies

/-- A module is checked when it is made from a definition, and it has the name that was defined. -/
theorem ModuleDefinition.checked_validate {d : ModuleDefinition μ}
    (h : d.validate settings = .ok m) : m.Checked settings ∧ m.name = d.manifest.name := by
  unfold validate at h
  simp only at h
  split_ifs at h with hplatform
  cases hmigration : Migration.ofCandidates d.manifest.name d.dir d.migrations with
  | error e =>
    rw [hmigration] at h
    cases h
  | ok migration =>
    rw [hmigration] at h
    cases h
    refine ⟨⟨fun key hkey => ?_, beq_iff_eq, fun hother => ?_⟩, rfl⟩
    · obtain ⟨text, -, rfl⟩ := List.mem_map.mp hkey
      exact isBareName_normalizeDependency text _
    · have hne : d.manifest.name ≠ settings.platform := beq_eq_false_iff_ne.mp hother
      simpa [hne] using hplatform

/-! ### Modules that are read -/

/-- The manifest of a document declares a name without a separator. -/
theorem Manifest.name_ofDocument {document : Kdl.Document} {manifest : Manifest}
    (h : ofDocument document = .ok manifest) : versionSeparator ∉ manifest.name.toList := by
  obtain ⟨m, -, hname⟩ := exists_of_bind_eq_ok h
  split_ifs at hname with hempty hseparator
  cases hname
  simpa using hseparator

/-- A manifest that was read declares a name without a separator. -/
theorem Manifest.name_parse {text : String} {manifest : Manifest}
    (h : parse text = .ok manifest) : versionSeparator ∉ manifest.name.toList := by
  unfold parse at h
  cases hdocument : Kdl.Document.parse? text with
  | none =>
    rw [hdocument] at h
    cases h
  | some document =>
    rw [hdocument] at h
    simp only at h
    cases hmanifest : ofDocument document with
    | error fault =>
      rw [hmanifest] at h
      cases h
    | ok m =>
      rw [hmanifest] at h
      cases h
      exact name_ofDocument hmanifest

namespace ModuleDirectory

variable {files : FileTree} {mappers left : MapperSet μ}

theorem name_definition {dir : String} {d : ModuleDefinition μ}
    (h : definition files dir = .ok d) : versionSeparator ∉ d.manifest.name.toList := by
  obtain ⟨text, -, h⟩ := exists_of_bind_eq_ok h
  obtain ⟨manifest, hmanifest, h⟩ := exists_of_bind_eq_ok h
  obtain ⟨paths, -, h⟩ := exists_of_bind_eq_ok h
  obtain ⟨migrations, -, h⟩ := exists_of_bind_eq_ok h
  obtain ⟨hooks, -, h⟩ := exists_of_bind_eq_ok h
  cases h
  exact Manifest.name_parse hmanifest

theorem checked_load {dir : String} (h : load files settings mappers dir = (.ok m, left)) :
    m.Checked settings ∧ versionSeparator ∉ m.name.toList := by
  unfold load at h
  cases hdefinition : (definition files dir : Except ModuleError (ModuleDefinition μ)) with
  | error e =>
    rw [hdefinition] at h
    cases h
  | ok d =>
    rw [hdefinition] at h
    obtain ⟨hchecked, hname⟩ := ModuleDefinition.checked_validate (congrArg Prod.fst h)
    have hseparator := name_definition hdefinition
    exact ⟨hchecked, fun hmem => hseparator (hname ▸ hmem)⟩

/-- Modules that are read from directories are checked, and no name has a separator in it. -/
theorem checked_loadAll {dirs : List String} {modules : List (Module μ)}
    (h : loadAll files settings mappers dirs = (.ok modules, left)) :
    ∀ m ∈ modules, m.Checked settings ∧ versionSeparator ∉ m.name.toList := by
  induction dirs generalizing mappers modules with
  | nil =>
    cases h
    exact fun m hm => absurd hm List.not_mem_nil
  | cons dir dirs ih =>
    unfold loadAll at h
    rcases hload : load files settings mappers dir with ⟨e | m, left'⟩
    · rw [hload] at h
      cases h
    · rw [hload] at h
      rcases hrest : loadAll files settings left' dirs with ⟨e | rest, left''⟩
      · simp [hrest, Except.map] at h
      · simp only [hrest, Except.map, Prod.mk.injEq, Except.ok.injEq] at h
        obtain ⟨rfl, rfl⟩ := h
        exact List.forall_mem_cons.mpr ⟨checked_load hload, ih hrest⟩

end ModuleDirectory

end Reconcile
