import Reconcile.Proofs.Files.Tree
import Reconcile.Proofs.Module.Closure
import Reconcile.Proofs.Module.Reading
import Reconcile.Proofs.Module.Sort

/-!
# Loading the modules of a directory

The modules of a directory are registered in the order in which they are sorted. A list of modules
that could come after those of a registry, one by one, is registered as it stands
(`Registry.Holds.registerAll`). Sorting brings modules into such an order, if nothing but their
order is in the way (`Registry.Loadable`). So they are all registered, in whatever order they were
read (`Registry.loadDirectory_complete`).
-/

namespace Reconcile

open Relation

variable {μ : Type} {settings : Settings} {log modules sorted found : List (Module μ)}
  {m n : Module μ}

/-- A log goes on with modules each of which is admitted by those before it. -/
theorem Registrable.append (h : Registrable settings log)
    (hadmitted : ∀ before m after, modules = before ++ m :: after →
      m.Admitted settings (log ++ before)) :
    Registrable settings (log ++ modules) := by
  induction modules using List.reverseRecOn with
  | nil => rwa [List.append_nil]
  | append_singleton modules m ih =>
    rw [← List.append_assoc]
    refine (ih fun before n after hsplit => ?_).snoc (hadmitted modules m [] rfl)
    exact hadmitted before n (after ++ [m]) (by rw [hsplit, List.append_assoc, List.cons_append])

namespace Registry

variable {r : Registry μ}

/-! ### Modules in order -/

/-- Nothing stands against registering a module that the log admits. -/
theorem Holds.obstacle?_eq_none (h : r.Holds settings log) (hm : m.Admitted settings log) :
    r.obstacle? m = none := by
  refine obstacle?_eq_none_iff.mpr ⟨?_, fun d hd => ?_, fun table htable => ?_⟩
  · rw [← Option.not_isSome_iff_eq_none, h.get?_isSome_iff]
    exact hm.new
  · rw [find?_of_versioned (hm.checked.versioned d hd), h.get?_isSome_iff]
    exact hm.dependencies d hd
  · refine Option.eq_none_iff_forall_ne_some.mpr fun key howner => ?_
    obtain ⟨n, hn, -, htable'⟩ := (h.tables_iff table key).mp howner
    exact hm.tables table htable n hn htable'

/-- Modules that can come after those of the log, one by one, are registered as they stand. -/
theorem Holds.registerAll (h : r.Holds settings log) (hlog : Registrable settings (log ++ modules))
    {byKey : Keyed String (Module μ)} (hfind : ∀ m ∈ modules, byKey.find? m.key = some m) :
    (r.registerAll byKey (modules.map Module.key)).result = .ok (modules.map Module.key) ∧
      (r.registerAll byKey (modules.map Module.key)).registry.Holds settings (log ++ modules) := by
  induction modules generalizing r log byKey with
  | nil => exact ⟨rfl, by rwa [List.append_nil]⟩
  | cons m modules ih =>
    have hm : m.Admitted settings log := hlog.admitted rfl
    rw [← List.concat_append, List.concat_eq_append] at hlog
    have hkeys : ∀ n ∈ modules, n.key ≠ m.key := by
      intro n hn hkey
      have hnodup := hlog.nodup_keys
      rw [List.map_append, List.map_append] at hnodup
      exact (List.nodup_append.mp hnodup).2.2 m.key (by simp) n.key (List.mem_map_of_mem hn)
        hkey.symm
    have hrest : ∀ n ∈ modules, (byKey.erase m.key).find? n.key = some n := fun n hn => by
      rw [Keyed.find?_erase_of_ne byKey (hkeys n hn)]
      exact hfind n (List.mem_cons_of_mem m hn)
    obtain ⟨hresult, hregistry⟩ := ih (h.add hm) hlog hrest
    have hstep : r.registerAll byKey ((m :: modules).map Module.key) =
        { (r.add m).registerAll (byKey.erase m.key) (modules.map Module.key) with
          result := ((r.add m).registerAll (byKey.erase m.key)
            (modules.map Module.key)).result.map (m.key :: ·) } := by
      rw [List.map_cons, Registry.registerAll, hfind m List.mem_cons_self]
      simp only [register, h.obstacle?_eq_none hm]
    rw [hstep]
    refine ⟨by rw [hresult]; rfl, ?_⟩
    rwa [List.append_assoc] at hregistry

/-! ### Modules in any order -/

/-- One of the modules has this key and this dependency. -/
def RequiresAmong (modules : List (Module μ)) (key dependency : String) : Prop :=
  ∃ m ∈ modules, m.key = key ∧ dependency ∈ m.dependencies

/-- Nothing but their order can stand against registering the modules of a list: their keys are
new and distinct, so are their tables, all that they depend on is among them or registered, and they
do not depend on each other in a circle. -/
structure Loadable (r : Registry μ) (modules : List (Module μ)) : Prop where
  keys_nodup : (modules.map Module.key).Nodup
  new : ∀ m ∈ modules, r.get? m.key = none
  tables_disjoint : modules.Pairwise fun m n =>
    ∀ table ∈ m.provides.tables, table ∉ n.provides.tables
  tables_free : ∀ m ∈ modules, ∀ table ∈ m.provides.tables, r.ownerOf? table = none
  dependencies : ∀ m ∈ modules, ∀ d ∈ m.dependencies,
    d ∈ modules.map Module.key ∨ (r.get? d).isSome
  acyclic : ∀ key, ¬ TransGen (RequiresAmong modules) key key

namespace Loadable

/-- Neither the order of modules nor their mappers make a difference. -/
theorem of_perm (h : r.Loadable found) (hperm : (modules.map Module.bare).Perm found) :
    r.Loadable modules := by
  have hmem : ∀ m ∈ modules, m.bare ∈ found := fun m hm => hperm.subset (List.mem_map_of_mem hm)
  have hkeys : (modules.map Module.key).Perm (found.map Module.key) := by
    have := hperm.map Module.key
    rwa [List.map_map] at this
  have htables : (modules.map Module.bare).Pairwise fun m n =>
      ∀ table ∈ m.provides.tables, table ∉ n.provides.tables :=
    (hperm.pairwise_iff fun hdisjoint table ht hs => hdisjoint table hs ht).mpr h.tables_disjoint
  refine ⟨hkeys.nodup_iff.mpr h.keys_nodup, fun m hm => h.new m.bare (hmem m hm),
    List.pairwise_map.mp htables, fun m hm => h.tables_free m.bare (hmem m hm),
    fun m hm d hd => ?_, fun key hcycle => h.acyclic key (TransGen.mono ?_ _ _ hcycle)⟩
  · rw [hkeys.mem_iff]
    exact h.dependencies m.bare (hmem m hm) d hd
  · rintro key d ⟨m, hm, hkey, hd⟩
    exact ⟨m.bare, hmem m hm, hkey, hd⟩

/-- Keys do not depend on each other in a circle if their ranks drop along dependencies. -/
theorem acyclic_of_rank (rank : String → Nat)
    (hrank : ∀ m ∈ modules, ∀ d ∈ m.dependencies, rank d < rank m.key) (key : String) :
    ¬ TransGen (RequiresAmong modules) key key := by
  have hdrop : ∀ d, TransGen (RequiresAmong modules) key d → rank d < rank key := by
    intro d hreach
    induction hreach with
    | single hedge =>
      obtain ⟨m, hm, rfl, hd⟩ := hedge
      exact hrank m hm _ hd
    | tail _ hedge ih =>
      obtain ⟨m, hm, rfl, hd⟩ := hedge
      exact (hrank m hm _ hd).trans ih
  exact fun hcycle => Nat.lt_irrefl _ (hdrop key hcycle)

/-- Modules whose dependencies are keys depend on each other only as their keys do. -/
theorem acyclic_dependsOn (h : r.Loadable modules) (hchecked : ∀ m ∈ modules, m.Checked settings)
    (m : Module μ) : ¬ TransGen (ModuleNode.DependsOn modules) m m := by
  have hpinned : ModuleNode.Pinned modules :=
    ⟨fun n hn => (hchecked n hn).versioned,
      fun n hn n' hn' hkey => List.inj_on_of_nodup_map h.keys_nodup hn hn' hkey⟩
  have hedge : ∀ n n', n ∈ modules → ModuleNode.DependsOn modules n n' →
      RequiresAmong modules n.key n'.key := fun n n' hn hdepends =>
    ⟨n, hn, rfl, ((hpinned.dependsOn_iff hn).mp hdepends).2⟩
  have hreach : ∀ n, m ∈ modules → TransGen (ModuleNode.DependsOn modules) m n →
      TransGen (RequiresAmong modules) m.key n.key := by
    intro n hm hreach
    induction hreach with
    | single hdepends => exact .single (hedge _ _ hm hdepends)
    | tail hreach hdepends ih =>
      obtain ⟨_, -, hlast⟩ := TransGen.tail'_iff.mp hreach
      exact ih.tail (hedge _ _ hlast.mem hdepends)
  intro hcycle
  obtain ⟨_, -, hlast⟩ := TransGen.tail'_iff.mp hcycle
  exact h.acyclic m.key (hreach m hlast.mem hcycle)

/-- Once they are sorted, the modules can come after those of the registry, one by one. -/
theorem registrable (h : r.Loadable modules) (hr : r.Holds settings log)
    (hchecked : ∀ m ∈ modules, m.Checked settings)
    (hsort : ModuleNode.sort modules [] = .ok sorted) (hperm : sorted.Perm modules) :
    Registrable settings (log ++ sorted) := by
  obtain ⟨hacyclic, hordered⟩ := ModuleNode.pairwise_of_sort h.keys_nodup hsort
  have htables : sorted.Pairwise fun m n =>
      ∀ table ∈ m.provides.tables, table ∉ n.provides.tables :=
    (hperm.pairwise_iff fun hdisjoint table ht hs => hdisjoint table hs ht).mpr h.tables_disjoint
  have hkeys : (sorted.map Module.key).Nodup := (hperm.map _).nodup_iff.mpr h.keys_nodup
  refine hr.registrable.append fun before m after hsplit => ?_
  have hm : m ∈ modules := hperm.subset (by simp [hsplit])
  rw [hsplit] at hordered htables hkeys
  refine ⟨hchecked m hm, fun hkey => ?_, fun d hd => ?_, fun table htable n hn => ?_⟩
  · rw [List.map_append, List.mem_append] at hkey
    rcases hkey with hkey | hkey
    · rw [← hr.get?_isSome_iff, h.new m hm] at hkey
      cases hkey
    · rw [List.map_append] at hkeys
      exact (List.nodup_append.mp hkeys).2.2 _ hkey m.key (by simp) rfl
  · rw [List.map_append, List.mem_append]
    rcases h.dependencies m hm d hd with hmem | hregistered
    · obtain ⟨n, hn, rfl⟩ := List.mem_map.mp hmem
      have hdepends : ModuleNode.DependsOn modules m n := ⟨n.key, hd, Or.inl ⟨hn, rfl⟩⟩
      have hn' : n ∈ before ++ m :: after := hsplit ▸ hperm.symm.subset hn
      rcases List.mem_append.mp hn' with hn' | hn'
      · exact Or.inr (List.mem_map_of_mem hn')
      · -- neither the module itself nor a later one can be meant
        rcases List.mem_cons.mp hn' with rfl | hn'
        · exact absurd (.single hdepends) (hacyclic n)
        · have hlater := (List.pairwise_append.mp hordered).2.1
          exact absurd (.single hdepends) ((List.pairwise_cons.mp hlater).1 n hn')
    · exact Or.inl (hr.get?_isSome_iff.mp hregistered)
  · rcases List.mem_append.mp hn with hn | hn
    · intro htable'
      have howner := hr.ownerOf?_iff.mpr ⟨hn, htable'⟩
      rw [h.tables_free m hm table htable] at howner
      cases howner
    · exact fun htable' =>
        (List.pairwise_append.mp htables).2.2 n hn m List.mem_cons_self table htable' htable

end Loadable

/-- The modules of a list under their keys, the last one where several have one key. -/
def byKey (modules : List (Module μ)) : Keyed String (Module μ) :=
  modules.foldl (fun all m => all.put m.key m) .empty

theorem find?_byKey (modules : List (Module μ)) (key : String) :
    (byKey modules).find? key = modules.reverse.find? fun m => decide (m.key = key) := by
  rw [byKey, Keyed.find?_foldl_put_values Module.key, Keyed.find?_empty, Option.or_none]

theorem key_of_find?_byKey {key : String} (h : (byKey modules).find? key = some m) :
    m.key = key := by
  rw [find?_byKey] at h
  simpa using List.find?_some h

theorem find?_byKey_isSome_iff {key : String} :
    ((byKey modules).find? key).isSome ↔ key ∈ modules.map Module.key := by
  rw [find?_byKey, List.find?_isSome, List.mem_map]
  simp

/-- Of modules with distinct keys, each is found under its key. -/
theorem find?_byKey_of_mem (hkeys : (modules.map Module.key).Nodup) (hm : m ∈ modules) :
    (byKey modules).find? m.key = some m := by
  obtain ⟨n, hn⟩ :=
    Option.isSome_iff_exists.mp (find?_byKey_isSome_iff.mpr (List.mem_map_of_mem hm))
  have hmem : n ∈ modules := by
    rw [find?_byKey] at hn
    exact List.mem_reverse.mp (List.mem_of_find?_eq_some hn)
  rw [hn, List.inj_on_of_nodup_map hkeys hmem hm (key_of_find?_byKey hn)]

/-- **Registering modules in any order**: they are sorted and then come after those that were
registered before. -/
theorem Loadable.registerSorted (h : r.Loadable modules) (hr : r.Holds settings log)
    (hchecked : ∀ m ∈ modules, m.Checked settings) :
    ∃ sorted, sorted.Perm modules ∧
      (r.registerSorted modules).result = .ok (sorted.map Module.key) ∧
      (r.registerSorted modules).registry.Holds settings (log ++ sorted) := by
  obtain ⟨sorted, hsort, hperm⟩ := ModuleNode.exists_sort (h.acyclic_dependsOn hchecked)
  have hlog := h.registrable hr hchecked hsort hperm
  refine ⟨sorted, hperm, ?_⟩
  unfold Registry.registerSorted
  rw [hsort]
  exact hr.registerAll hlog fun m hm => find?_byKey_of_mem h.keys_nodup (hperm.subset hm)

/-! ### Directories -/

/-- Reads the modules in the listed directories and registers them. -/
def loadListed (r : Registry μ) (files : FileTree) (mappers : MapperSet μ) (dirs : List String) :
    Answer μ (List String) × MapperSet μ :=
  match ModuleDirectory.loadAll files r.settings mappers dirs with
  | (.error e, left) => (⟨.error e, r⟩, left)
  | (.ok modules, left) => (r.registerSorted modules, left)

variable {files : FileTree} {root : String} {dirs dirs' : List String} {mappers : MapperSet μ}

theorem loadDirectory_eq (hfind : ModuleDirectory.find files root = .ok dirs) :
    r.loadDirectory files root mappers = r.loadListed files mappers dirs := by
  unfold loadDirectory
  rw [hfind]
  rfl

/-- The answer of a call that brings modules: it lists the key of each once, and each is registered
after those that were registered before. Their mappers may be any. -/
def Brings (r : Registry μ) (found : List (Module μ)) (answer : Answer μ (List String)) : Prop :=
  ∃ modules, (modules.map Module.bare).Perm found ∧ answer.registry.listed = r.listed ++ modules ∧
    (∀ m ∈ modules, answer.registry.get? m.key = some m) ∧
    answer.result = .ok (modules.map Module.key) ∧ (modules.map Module.key).Nodup

/-- The directories may be listed in any order. -/
theorem Loadable.loadListed (h : r.Loadable found) (hr : r.Holds settings log)
    (hdeclared : dirs.mapM (ModuleDirectory.declared files settings) = .ok found)
    (hdirs : dirs'.Perm dirs) (mappers : MapperSet μ) :
    r.Brings found (r.loadListed files mappers dirs').1 := by
  obtain ⟨modules, left, hload, hperm⟩ :=
    ModuleDirectory.exists_loadAll_of_perm hdirs hdeclared mappers
  have hchecked : ∀ m ∈ modules, m.Checked settings := fun m hm =>
    (ModuleDirectory.checked_loadAll hload m hm).1
  obtain ⟨sorted, hsorted, hresult, hregistry⟩ := (h.of_perm hperm).registerSorted hr hchecked
  have heq : (r.loadListed files mappers dirs').1 = r.registerSorted modules := by
    unfold Registry.loadListed
    rw [hr.settings_eq, hload]
  rw [heq]
  refine ⟨sorted, (hsorted.map _).trans hperm, ?_, fun m hm => ?_, hresult, ?_⟩
  · rw [hregistry.listed_eq, hr.listed_eq]
  · exact (hregistry.get?_iff _ _).mpr ⟨List.mem_append_right log hm, rfl⟩
  · exact (hsorted.map _).nodup_iff.mpr (h.of_perm hperm).keys_nodup

/-- **Loading is complete**, in every registry that calls can make: if all directories of modules
declare modules, and nothing but their order stands against registering these, they are all
registered and each of their keys is answered once. The same comes of the directories in any other
order. -/
theorem loadDirectory_complete {calls : List (Call μ)} (hr : (empty settings).run calls = r)
    (hfind : ModuleDirectory.find files root = .ok dirs)
    (hdeclared : dirs.mapM (ModuleDirectory.declared files settings) = .ok found)
    (hload : r.Loadable found) (mappers : MapperSet μ) :
    r.Brings found (r.loadDirectory files root mappers).1 ∧
      ∀ dirs', dirs'.Perm dirs → r.Brings found (r.loadListed files mappers dirs').1 := by
  obtain ⟨log, hlog⟩ := exists_holds_run settings calls
  rw [hr] at hlog
  rw [loadDirectory_eq hfind]
  exact ⟨hload.loadListed hlog hdeclared (.refl dirs) mappers,
    fun dirs' hdirs => hload.loadListed hlog hdeclared hdirs mappers⟩

deriving instance DecidableEq for Module

/-- The directories `m/x` of the given names `x`, each with a manifest and one migration. -/
def shelf (manifests : List (String × String)) : FileTree :=
  manifests.foldl (fun files (name, manifest) =>
    (files.addFile ["m", name, Manifest.fileName] manifest.toUTF8).addFile
      ["m", name, "migration", "i.sql"]
      "-- migrate:install\nSELECT 1;\n-- migrate:remove\nSELECT 2;\n".toUTF8) .empty

/-- The module that is declared in a directory of a shelf. -/
def shelved (dir name : String) (dependencies tables : List String) : Module Empty where
  name := name
  version := Settings.default.version
  dependencies := dependencies
  provides := ⟨tables, []⟩
  migration := ⟨"m/" ++ dir ++ "/migration/i.sql", "SELECT 1;", "SELECT 2;"⟩
  hooks := .empty
  mappers := []
  dir := "m/" ++ dir
  isPlatform := name == "p"

/-- Two modules, of which the first one depends on the second one. -/
def unordered : FileTree :=
  shelf [("x", "module b\ndependency a p"), ("y", "module a\ndependency p\nprovides { table u }")]

/-- The modules that these directories declare, in the order of the directories. -/
def unorderedModules : List (Module Empty) :=
  [shelved "x" "b" ["a@0.1.0", "p@0.1.0"] [], shelved "y" "a" ["p@0.1.0"] ["u"]]

theorem loadDirectory_complete_unordered :
    ModuleDirectory.find unordered "m" = .ok ["m/x", "m/y"] ∧
    ["m/x", "m/y"].mapM (ModuleDirectory.declared unordered
      { Settings.default with platform := "p" }) = .ok unorderedModules ∧
    (sketched [.define (sketch "p" "0.1.0" [] ["t"])]).Loadable unorderedModules ∧
    (sketched [.define (sketch "p" "0.1.0" [] ["t"])]).Brings unorderedModules
      ((sketched [.define (sketch "p" "0.1.0" [] ["t"])]).loadDirectory unordered "m" []).1 := by
  have hfind : ModuleDirectory.find unordered "m" = .ok ["m/x", "m/y"] := by
    simp only [ModuleDirectory.find, FileTree.list, FileTree.isDirectory, FileTree.isFile,
      FileTree.lookUp, FileTree.resolve_eq, FileTree.namesAt_eq]
    decide +kernel
  have hdeclared : ModuleDirectory.declared unordered { Settings.default with platform := "p" }
        "m/x" = .ok (shelved "x" "b" ["a@0.1.0", "p@0.1.0"] []) ∧
      ModuleDirectory.declared unordered { Settings.default with platform := "p" }
        "m/y" = .ok (shelved "y" "a" ["p@0.1.0"] ["u"]) := by
    simp only [ModuleDirectory.declared, ModuleDirectory.load, ModuleDirectory.definition,
      ModuleDirectory.migrations, ModuleDirectory.hooks, ModuleDirectory.readText,
      FileTree.readText, FileTree.list, FileTree.isDirectory, FileTree.isFile, FileTree.lookUp,
      FileTree.resolve_eq, FileTree.namesAt_eq]
    decide +kernel
  have hmodules : ["m/x", "m/y"].mapM (ModuleDirectory.declared unordered
      { Settings.default with platform := "p" }) = .ok unorderedModules :=
    mapM_eq_ok_iff.mpr (.cons hdeclared.1 (.cons hdeclared.2 .nil))
  have hload : (sketched [.define (sketch "p" "0.1.0" [] ["t"])]).Loadable unorderedModules :=
    { keys_nodup := by decide +kernel
      new := by decide +kernel
      tables_disjoint := by decide +kernel
      tables_free := by decide +kernel
      dependencies := by decide +kernel
      acyclic := Loadable.acyclic_of_rank
        (fun key => if key = "b@0.1.0" then 2 else if key = "a@0.1.0" then 1 else 0)
        (by decide +kernel) }
  exact ⟨hfind, hmodules, hload, (loadDirectory_complete rfl hfind hmodules hload []).1⟩

end Registry

end Reconcile
