import Reconcile.Proofs.Module.Loading

/-!
# Directories that declare the same key

The modules of a directory are registered by their keys. What a successful call has registered can
be told for every registry, whether calls can make it or not (`Registry.Took`): each key of the
modules once, none of which was registered before. So a key that several directories declare is
answered once, and the module of the last one of them is registered; those of the others are dropped
(`Registry.loadDirectory_lossless_iff`).
-/

namespace Reconcile

variable {μ : Type} {modules sorted : List (Module μ)} {m : Module μ}

namespace Registry

variable {r r' : Registry μ} {available : Keyed String (Module μ)} {wanted keys : List String}

/-- What has happened once the modules of the wanted keys are registered: each of the keys under
which there is a module was registered once, with this module. -/
structure Took (r : Registry μ) (available : Keyed String (Module μ)) (wanted keys : List String)
    (r' : Registry μ) : Prop where
  nodup : keys.Nodup
  mem_iff : ∀ key, key ∈ keys ↔ key ∈ wanted ∧ (available.find? key).isSome
  new : ∀ key ∈ keys, r.get? key = none
  order_eq : r'.order = r.order ++ keys
  get?_eq : ∀ key, r'.get? key = if key ∈ keys then available.find? key else r.get? key

namespace Took

theorem nil (r : Registry μ) (available : Keyed String (Module μ)) : r.Took available [] [] r where
  nodup := List.nodup_nil
  mem_iff _ := by simp
  new _ hkey := absurd hkey List.not_mem_nil
  order_eq := (List.append_nil _).symm
  get?_eq _ := by simp

/-- A key under which there is no module is passed over. -/
theorem skip {key : String} (h : r.Took available wanted keys r')
    (hnone : available.find? key = none) : r.Took available (key :: wanted) keys r' where
  nodup := h.nodup
  mem_iff other := by
    rw [h.mem_iff, List.mem_cons]
    refine ⟨fun ⟨hmem, hsome⟩ => ⟨Or.inr hmem, hsome⟩, ?_⟩
    rintro ⟨rfl | hmem, hsome⟩
    · rw [hnone] at hsome
      cases hsome
    · exact ⟨hmem, hsome⟩
  new := h.new
  order_eq := h.order_eq
  get?_eq := h.get?_eq

/-- A module that can be registered is taken. -/
theorem cons {key : String} (hfind : available.find? m.key = some m)
    (hnew : r.get? m.key = none) (hkey : m.key = key)
    (h : (r.add m).Took (available.erase key) wanted keys r') :
    r.Took available (key :: wanted) (key :: keys) r' := by
  subst hkey
  have hmem : ∀ key, key ∈ keys ↔ key ≠ m.key ∧ key ∈ wanted ∧ (available.find? key).isSome := by
    intro key
    rw [h.mem_iff, Keyed.find?_erase]
    split_ifs with heq
    · simp [heq]
    · simp [heq]
  have hgone : m.key ∉ keys := fun hkey => ((hmem m.key).mp hkey).1 rfl
  refine ⟨List.nodup_cons.mpr ⟨hgone, h.nodup⟩, fun key => ?_, fun key hkey => ?_, ?_,
    fun key => ?_⟩
  · rw [List.mem_cons, List.mem_cons, hmem]
    by_cases heq : key = m.key
    · simp [heq, hfind]
    · simp [heq]
  · rcases List.mem_cons.mp hkey with rfl | hkey
    · exact hnew
    · have hadd := h.new key hkey
      rw [get?_add] at hadd
      split_ifs at hadd
      exact hadd
  · rw [h.order_eq, add, List.append_assoc, List.singleton_append]
  · rw [h.get?_eq, get?_add, Keyed.find?_erase]
    by_cases heq : key = m.key
    · simp [heq, hgone, hfind]
    · simp [heq]

end Took

/-- **Registering by keys**, in any registry: what a call has done that succeeded. -/
theorem took_of_registerAll (hkeys : ∀ key m, available.find? key = some m → m.key = key)
    (h : (r.registerAll available wanted).result = .ok keys) :
    r.Took available wanted keys (r.registerAll available wanted).registry := by
  induction wanted generalizing r available keys with
  | nil =>
    obtain rfl := Except.ok.inj h
    exact .nil r available
  | cons key wanted ih =>
    unfold registerAll at h ⊢
    cases hfind : available.find? key with
    | none =>
      simp only [hfind] at h ⊢
      exact (ih hkeys h).skip hfind
    | some m =>
      simp only [hfind] at h ⊢
      have hkey : m.key = key := hkeys key m hfind
      unfold register at h ⊢
      cases hobstacle : r.obstacle? m with
      | some e =>
        simp only [hobstacle] at h
        cases h
      | none =>
        simp only [hobstacle] at h ⊢
        obtain ⟨rest, hrest, rfl⟩ := exists_of_map_eq_ok h
        refine .cons (hkey ▸ hfind) (obstacle?_eq_none_iff.mp hobstacle).1 hkey (ih ?_ hrest)
        intro other n hn
        rw [Keyed.find?_erase] at hn
        split_ifs at hn
        exact hkeys other n hn

/-- Sorting makes no difference to which keys are registered. -/
theorem took_of_registerSorted (h : (r.registerSorted modules).result = .ok keys) :
    r.Took (byKey modules) (modules.map Module.key) keys (r.registerSorted modules).registry := by
  unfold registerSorted at h ⊢
  cases hsort : ModuleNode.sort modules [] with
  | error e =>
    rw [hsort] at h
    cases h
  | ok sorted =>
    simp only [hsort] at h ⊢
    have htook : r.Took (byKey modules) (sorted.map Module.key) keys _ :=
      took_of_registerAll (fun key m hm => key_of_find?_byKey hm) h
    refine ⟨htook.nodup, fun key => ?_, htook.new, htook.order_eq, htook.get?_eq⟩
    rw [htook.mem_iff, ((ModuleNode.perm_of_sort hsort).map Module.key).mem_iff]

/-! ### Directories -/

/-- Keys that are those of a list, each once, are as many as the list is long exactly if the list
repeats none. -/
theorem length_eq_iff_nodup {α : Type} {keys all : List α} (hnodup : keys.Nodup)
    (hmem : ∀ key, key ∈ keys ↔ key ∈ all) : keys.length = all.length ↔ all.Nodup := by
  constructor
  · intro hlength
    have hsubperm : keys.Subperm all := hnodup.subperm fun key => (hmem key).mp
    exact (hsubperm.perm_of_length_le hlength.ge).nodup_iff.mp hnodup
  · exact fun hall => ((List.perm_ext_iff_of_nodup hnodup hall).mpr hmem).length_eq

variable {files : FileTree} {root : String} {mappers : MapperSet μ}

/-- **What loading drops**, in any registry: a call that succeeds has read a module from every
directory of modules and registered their keys, each once and none of which was registered before.
Under each key there is the last module that has it. So the keys are as many as the directories if
and only if no two directories declare the same key. -/
theorem loadDirectory_lossless_iff (h : (r.loadDirectory files root mappers).1.result = .ok keys) :
    ∃ dirs modules, ModuleDirectory.find files root = .ok dirs ∧
      (ModuleDirectory.loadAll files r.settings mappers dirs).1 = .ok modules ∧
      modules.length = dirs.length ∧ keys.Nodup ∧
      (∀ key, key ∈ keys ↔ key ∈ modules.map Module.key) ∧ (∀ key ∈ keys, r.get? key = none) ∧
      (r.loadDirectory files root mappers).1.registry.order = r.order ++ keys ∧
      (∀ key, (r.loadDirectory files root mappers).1.registry.get? key =
        (modules.reverse.find? fun m => decide (m.key = key)).or (r.get? key)) ∧
      (keys.length = dirs.length ↔ (modules.map Module.key).Nodup) := by
  cases hfind : ModuleDirectory.find files root with
  | error e =>
    unfold loadDirectory at h
    rw [hfind] at h
    cases h
  | ok dirs =>
    rw [loadDirectory_eq hfind] at h ⊢
    unfold loadListed at h ⊢
    rcases hload : ModuleDirectory.loadAll files r.settings mappers dirs with ⟨e | modules, left⟩
    · rw [hload] at h
      cases h
    · simp only [hload] at h ⊢
      have htook := took_of_registerSorted h
      have hlength : modules.length = dirs.length := by
        have hdeclared := mapM_eq_ok_iff.mp (ModuleDirectory.mapM_declared_of_loadAll hload)
        simpa using hdeclared.length_eq.symm
      have hmem : ∀ key, key ∈ keys ↔ key ∈ modules.map Module.key := fun key => by
        rw [htook.mem_iff, find?_byKey_isSome_iff, and_self]
      refine ⟨dirs, modules, rfl, congrArg Prod.fst hload, hlength, htook.nodup, hmem, htook.new,
        htook.order_eq, fun key => ?_, ?_⟩
      · have hfound : key ∈ keys ↔ ((byKey modules).find? key).isSome :=
          (hmem key).trans find?_byKey_isSome_iff.symm
        rw [htook.get?_eq, ← find?_byKey]
        cases hlast : (byKey modules).find? key <;> simp [hfound, hlast]
      · rw [← hlength, ← List.length_map Module.key]
        exact length_eq_iff_nodup htook.nodup hmem

/-- Two directories that declare the same module, of which only the first one provides a table. -/
def twins : FileTree :=
  shelf [("a", "module p\nprovides { table t }"), ("b", "module p")]

theorem find_twins : ModuleDirectory.find twins "m" = .ok ["m/a", "m/b"] := by
  simp only [ModuleDirectory.find, FileTree.list, FileTree.isDirectory, FileTree.isFile,
    FileTree.lookUp, FileTree.resolve_eq, FileTree.namesAt_eq]
  decide +kernel

theorem loadAll_twins :
    ModuleDirectory.loadAll twins { Settings.default with platform := "p" } [] ["m/a", "m/b"] =
      (.ok [shelved "a" "p" [] ["t"], shelved "b" "p" [] []], []) := by
  have hdeclared : ModuleDirectory.declared twins { Settings.default with platform := "p" }
        "m/a" = .ok (shelved "a" "p" [] ["t"]) ∧
      ModuleDirectory.declared twins { Settings.default with platform := "p" }
        "m/b" = .ok (shelved "b" "p" [] []) := by
    simp only [ModuleDirectory.declared, ModuleDirectory.load, ModuleDirectory.definition,
      ModuleDirectory.migrations, ModuleDirectory.hooks, ModuleDirectory.readText,
      FileTree.readText, FileTree.list, FileTree.isDirectory, FileTree.isFile, FileTree.lookUp,
      FileTree.resolve_eq, FileTree.namesAt_eq]
    decide +kernel
  rw [ModuleDirectory.loadAll_nil, mapM_eq_ok_iff.mpr (.cons hdeclared.1 (.cons hdeclared.2 .nil))]

theorem loadDirectory_twins : ((sketched []).loadDirectory twins "m" []).1 =
    (sketched []).registerSorted [shelved "a" "p" [] ["t"], shelved "b" "p" [] []] := by
  have hload : ModuleDirectory.loadAll twins (sketched []).settings [] ["m/a", "m/b"] = _ :=
    loadAll_twins
  rw [loadDirectory_eq find_twins, loadListed, hload]

/-- One key is answered for two directories. -/
theorem loadDirectory_lossless_iff_twins :
    ((sketched []).loadDirectory twins "m" []).1.result = .ok ["p@0.1.0"] ∧
    ∃ (dirs : List String) (modules : List (Module Empty)),
      ModuleDirectory.find twins "m" = .ok dirs ∧ modules.length = dirs.length ∧
      (∀ key, key ∈ ["p@0.1.0"] ↔ key ∈ modules.map Module.key) ∧
      (["p@0.1.0"].length = dirs.length ↔ (modules.map Module.key).Nodup) := by
  have hkeys : ((sketched []).loadDirectory twins "m" []).1.result = .ok ["p@0.1.0"] := by
    rw [loadDirectory_twins]
    decide +kernel
  obtain ⟨dirs, modules, hfind, -, hlength, -, hmem, -, -, -, hlossless⟩ :=
    loadDirectory_lossless_iff hkeys
  exact ⟨hkeys, dirs, modules, hfind, hlength, hmem, hlossless⟩

/-- **A module is dropped**: the call succeeds, and the module of the first directory is not
registered. Nobody provides its table. -/
theorem loadDirectory_drops :
    ModuleDirectory.find twins "m" = .ok ["m/a", "m/b"] ∧
    (ModuleDirectory.loadAll twins (sketched []).settings ([] : MapperSet Empty)
      ["m/a", "m/b"]).1.map (List.map Module.key) = .ok ["p@0.1.0", "p@0.1.0"] ∧
    ((sketched []).loadDirectory twins "m" []).1.result = .ok ["p@0.1.0"] ∧
    ((sketched []).loadDirectory twins "m" []).1.registry.listed.map Module.dir = ["m/b"] ∧
    ((sketched []).loadDirectory twins "m" []).1.registry.ownerOf? "t" = none ∧
    ["p@0.1.0"].length ≠ ["m/a", "m/b"].length := by
  have hload : ModuleDirectory.loadAll twins (sketched []).settings [] ["m/a", "m/b"] = _ :=
    loadAll_twins
  rw [hload, loadDirectory_twins]
  exact ⟨find_twins, rfl, by decide +kernel, by decide +kernel, by decide +kernel, by decide⟩

end Registry

end Reconcile
