import Reconcile.Proofs.Graph.PostOrder
import Reconcile.Proofs.Module.Checked

/-!
# Logs of registered modules

A log lists the modules of a registry in the order in which they were registered. It grows at its
end, by modules that the log before them admits (`Module.Admitted`): their key is new, all that they
depend on is in the log, and none of their tables belongs to a module in the log.

Nothing else has to be known of a registry to see that its modules do not depend on each other in a
circle (`Registrable.ordered`) and that no two of them provide one table
(`Registrable.owner_unique`).

That every module is bound to the platform module of its own version needs more, since a dependency
is only a key. When names are without separators, a key tells the name and the version, and the
module that has the key of the platform module is the platform module
(`Registrable.exists_platform`).
-/

namespace Reconcile

variable {μ : Type} {settings : Settings} {log before after : List (Module μ)} {m n : Module μ}

/-- A module that can come after those in a log. -/
structure Module.Admitted (settings : Settings) (log : List (Module μ)) (m : Module μ) : Prop where
  checked : m.Checked settings
  new : m.key ∉ log.map Module.key
  dependencies : ∀ d ∈ m.dependencies, d ∈ log.map Module.key
  tables : ∀ table ∈ m.provides.tables, ∀ n ∈ log, table ∉ n.provides.tables

/-- A log each of whose modules is admitted by those before it. -/
inductive Registrable (settings : Settings) : List (Module μ) → Prop
  | nil : Registrable settings []
  | snoc {log : List (Module μ)} {m : Module μ} (hlog : Registrable settings log)
      (hm : m.Admitted settings log) : Registrable settings (log ++ [m])

namespace Registrable

/-- What comes before a module in a log admits it. -/
theorem admitted (h : Registrable settings log) (hsplit : log = before ++ m :: after) :
    m.Admitted settings before := by
  induction h generalizing after with
  | nil => simp at hsplit
  | @snoc log n _ hn ih =>
    rcases after.eq_nil_or_concat with rfl | ⟨after, l, rfl⟩
    · obtain ⟨rfl, hlast⟩ := List.append_inj' hsplit rfl
      exact List.singleton_inj.mp hlast ▸ hn
    · rw [List.concat_eq_append, ← List.cons_append, ← List.append_assoc] at hsplit
      exact ih (List.append_inj' hsplit rfl).1

theorem checked (h : Registrable settings log) (hm : m ∈ log) : m.Checked settings := by
  obtain ⟨before, after, hsplit⟩ := List.append_of_mem hm
  exact (h.admitted hsplit).checked

/-- The keys of a log are in an order in which every module comes after all that it depends on. -/
theorem ordered (h : Registrable settings log) {next : String → List String}
    (hnext : ∀ m ∈ log, next m.key = m.dependencies) :
    Graph.Ordered next (log.map Module.key) := by
  induction h with
  | nil => exact .nil
  | @snoc log m _ hm ih =>
    rw [List.map_append]
    refine (ih fun n hn => hnext n (List.mem_append_left _ hn)).snoc hm.new fun d hd => ?_
    rw [hnext m List.mem_concat_self] at hd
    exact hm.dependencies d hd

theorem nodup_keys (h : Registrable settings log) : (log.map Module.key).Nodup := by
  induction h with
  | nil => exact List.nodup_nil
  | @snoc log m _ hm ih =>
    rw [List.map_append, List.map_singleton]
    exact List.nodup_append.mpr ⟨ih, List.nodup_singleton _, fun k hk l hl heq =>
      hm.new (List.mem_singleton.mp hl ▸ heq ▸ hk)⟩

/-- A key tells the module. -/
theorem key_inj (h : Registrable settings log) (hm : m ∈ log) (hn : n ∈ log)
    (hkey : m.key = n.key) : m = n :=
  List.inj_on_of_nodup_map h.nodup_keys hm hn hkey

/-- A table tells the module that provides it. -/
theorem owner_unique (h : Registrable settings log) {table : String} (hm : m ∈ log) (hn : n ∈ log)
    (htable : table ∈ m.provides.tables) (htable' : table ∈ n.provides.tables) : m = n := by
  induction h with
  | nil => exact absurd hm List.not_mem_nil
  | @snoc log l _ hl ih =>
    rcases List.mem_append.mp hm with hm | hm <;> rcases List.mem_append.mp hn with hn | hn
    · exact ih hm hn
    · rw [List.mem_singleton.mp hn] at htable'
      exact absurd htable (hl.tables table htable' m hm)
    · rw [List.mem_singleton.mp hm] at htable
      exact absurd htable' (hl.tables table htable n hn)
    · rw [List.mem_singleton.mp hm, List.mem_singleton.mp hn]

/-! ### Dependencies -/

/-- All that a module depends on is in the log. -/
theorem exists_dependency (h : Registrable settings log) (hm : m ∈ log) {d : String}
    (hd : d ∈ m.dependencies) : ∃ n ∈ log, n.key = d := by
  obtain ⟨before, after, rfl⟩ := List.append_of_mem hm
  obtain ⟨n, hn, hkey⟩ := List.mem_map.mp ((h.admitted rfl).dependencies d hd)
  exact ⟨n, List.mem_append_left _ hn, hkey⟩

/-- No module depends on itself. -/
theorem key_not_mem (h : Registrable settings log) (hm : m ∈ log) : m.key ∉ m.dependencies := by
  obtain ⟨before, after, rfl⟩ := List.append_of_mem hm
  have hadmitted := h.admitted rfl
  exact fun hd => hadmitted.new (hadmitted.dependencies _ hd)

/-- No module depends on a later one. -/
theorem pairwise (h : Registrable settings log) :
    log.Pairwise fun m n => n.key ∉ m.dependencies := by
  induction h with
  | nil => exact List.Pairwise.nil
  | @snoc log l hlog hl ih =>
    refine List.pairwise_append.mpr ⟨ih, List.pairwise_singleton _ _, fun m hm n hn hd => ?_⟩
    rw [List.mem_singleton.mp hn] at hd
    obtain ⟨n', hn', hkey⟩ := hlog.exists_dependency hm hd
    exact hl.new (List.mem_map.mpr ⟨n', hn', hkey⟩)

/-! ### The platform module -/

/-- The first module of a log is the platform module: it depends on nothing. -/
theorem name_head (h : Registrable settings (m :: log)) : m.name = settings.platform := by
  have hm := h.admitted (List.nil_append (m :: log)).symm
  refine hm.checked.isPlatform_iff.mp (Bool.of_not_eq_false fun hplatform => ?_)
  exact absurd (hm.dependencies _ (hm.checked.platform hplatform)) List.not_mem_nil

/-- **The platform module.** When no name has a separator in it, a module that is not the platform
module comes after a platform module of its own version, on which it depends. -/
theorem exists_platform (h : Registrable settings log)
    (hnames : ∀ m ∈ log, versionSeparator ∉ m.name.toList) (hsplit : log = before ++ m :: after)
    (hm : m.isPlatform = false) :
    ∃ n ∈ before, n.isPlatform = true ∧ n.version = m.version ∧ n.key ∈ m.dependencies := by
  have hplatform : versionSeparator ∉ settings.platform.toList := by
    cases log with
    | nil => simp at hsplit
    | cons first rest => exact h.name_head ▸ hnames first List.mem_cons_self
  have hadmitted := h.admitted hsplit
  have hdependency := hadmitted.checked.platform hm
  obtain ⟨n, hn, hkey⟩ := List.mem_map.mp (hadmitted.dependencies _ hdependency)
  have hn' : n ∈ log := hsplit ▸ List.mem_append_left _ hn
  obtain ⟨hname, hversion⟩ := (moduleKey_inj (hnames n hn') hplatform).mp hkey
  exact ⟨n, hn, (h.checked hn').isPlatform_iff.mpr hname, hversion, hkey ▸ hdependency⟩

end Registrable

end Reconcile
