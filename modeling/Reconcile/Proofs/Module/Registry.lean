import Reconcile.Proofs.Keyed
import Reconcile.Proofs.Module.Log

/-!
# Registries

A registry is known by the log of its modules: the modules under their keys, the order and the
owners of the tables are three views of it (`Registry.Holds`). Registering a module either changes
nothing or adds to the log a module that the log admits (`Registry.Logged.register`). So every call
keeps the views together, whether it fails or not, also when it fails after some modules of a
directory have been registered (`Registry.Logged.run`).

What a registry promises at every time is then read off its log (`Registry.consistent_run`).
-/

namespace Reconcile

open Relation

variable {μ : Type} {settings : Settings} {log : List (Module μ)} {m : Module μ}

namespace Registry

variable {r : Registry μ}

/-- The parts of a registry are those of a log. -/
structure Holds (r : Registry μ) (settings : Settings) (log : List (Module μ)) : Prop where
  registrable : Registrable settings log
  settings_eq : r.settings = settings
  order_eq : r.order = log.map Module.key
  get?_iff : ∀ key m, r.get? key = some m ↔ m ∈ log ∧ m.key = key
  tables_iff : ∀ table key, r.tables.find? table = some key ↔
    ∃ m ∈ log, m.key = key ∧ table ∈ m.provides.tables

theorem holds_empty (settings : Settings) : (empty settings : Registry μ).Holds settings [] where
  registrable := .nil
  settings_eq := rfl
  order_eq := rfl
  get?_iff _ _ := by simp [get?, empty]
  tables_iff _ _ := by simp [empty]

namespace Holds

theorem get?_isSome_iff (h : r.Holds settings log) {key : String} :
    (r.get? key).isSome ↔ key ∈ log.map Module.key := by
  simp only [Option.isSome_iff_exists, h.get?_iff, List.mem_map]

theorem listed_eq (h : r.Holds settings log) : r.listed = log := by
  have hself : ∀ m ∈ log, (r.get? ∘ Module.key) m = some m := fun m hm =>
    (h.get?_iff _ _).mpr ⟨hm, rfl⟩
  rw [listed, h.order_eq, List.filterMap_map, List.filterMap_congr hself, List.filterMap_some]

theorem ownerOf?_iff (h : r.Holds settings log) {table : String} :
    r.ownerOf? table = some m ↔ m ∈ log ∧ table ∈ m.provides.tables := by
  rw [ownerOf?, Option.bind_eq_some_iff]
  constructor
  · rintro ⟨key, howner, hget⟩
    obtain ⟨n, hn, hkey, htable⟩ := (h.tables_iff _ _).mp howner
    obtain ⟨hm, hkey'⟩ := (h.get?_iff _ _).mp hget
    obtain rfl := h.registrable.key_inj hn hm (hkey.trans hkey'.symm)
    exact ⟨hm, htable⟩
  · rintro ⟨hm, htable⟩
    exact ⟨m.key, (h.tables_iff _ _).mpr ⟨m, hm, rfl, htable⟩, (h.get?_iff _ _).mpr ⟨hm, rfl⟩⟩

end Holds

/-! ### Registering a module -/

/-- A dependency with a version is looked up by its key. -/
theorem find?_of_versioned {d : String} (hd : isBareName d = false) : r.find? d = r.get? d := by
  unfold find?
  cases r.get? d <;> simp [hd]

/-- What stands against registering a module is missing exactly if its key is new, its dependencies
are registered and its tables belong to nobody. -/
theorem obstacle?_eq_none_iff : r.obstacle? m = none ↔
    r.get? m.key = none ∧ (∀ d ∈ m.dependencies, (r.find? d).isSome) ∧
      ∀ table ∈ m.provides.tables, r.tables.find? table = none := by
  unfold obstacle?
  split_ifs with hknown
  · refine iff_of_false id ?_
    rintro ⟨hnew, -⟩
    rw [hnew] at hknown
    cases hknown
  · rw [Option.not_isSome_iff_eq_none] at hknown
    cases hmissing : m.dependencies.find? fun d => (r.find? d).isNone with
    | some d =>
      refine iff_of_false (Option.some_ne_none _) ?_
      rintro ⟨-, hfound, -⟩
      exact absurd (hfound d (List.mem_of_find?_eq_some hmissing))
        (by simpa using List.find?_some hmissing)
    | none =>
      have hfound : ∀ d ∈ m.dependencies, (r.find? d).isSome := by
        simpa [Option.isSome_iff_ne_none] using hmissing
      simpa [takenTable?, hknown] using fun _ => hfound

theorem get?_add (r : Registry μ) (m : Module μ) (key : String) :
    (r.add m).get? key = if key = m.key then some m else r.get? key :=
  Keyed.find?_put r.modules m.key key m

theorem find?_tables_add (r : Registry μ) (m : Module μ) (table : String) :
    (r.add m).tables.find? table =
      if table ∈ m.provides.tables then some m.key else r.tables.find? table :=
  Keyed.find?_foldl_put m.provides.tables r.tables m.key table

namespace Holds

/-- A module without obstacle is admitted by the log. -/
theorem admitted (h : r.Holds settings log) (hm : m.Checked settings)
    (hnone : r.obstacle? m = none) : m.Admitted settings log := by
  obtain ⟨hnew, hfound, hfree⟩ := obstacle?_eq_none_iff.mp hnone
  refine ⟨hm, fun hmem => ?_, fun d hd => ?_, fun table htable n hn htable' => ?_⟩
  · rw [← h.get?_isSome_iff, hnew] at hmem
    cases hmem
  · rw [← h.get?_isSome_iff, ← find?_of_versioned (hm.versioned d hd)]
    exact hfound d hd
  · have howner := (h.tables_iff table n.key).mpr ⟨n, hn, rfl, htable'⟩
    rw [hfree table htable] at howner
    cases howner

/-- A registry with one more module holds the log with this module at its end. -/
theorem add (h : r.Holds settings log) (hm : m.Admitted settings log) :
    (r.add m).Holds settings (log ++ [m]) where
  registrable := h.registrable.snoc hm
  settings_eq := h.settings_eq
  order_eq := by simp [Registry.add, h.order_eq]
  get?_iff key n := by
    rw [get?_add, List.mem_append, List.mem_singleton]
    split_ifs with hkey
    · constructor
      · intro hsome
        obtain rfl := Option.some.inj hsome
        exact ⟨Or.inr rfl, hkey.symm⟩
      · rintro ⟨hn | rfl, hkey'⟩
        · exact absurd (List.mem_map.mpr ⟨n, hn, hkey'.trans hkey⟩) hm.new
        · rfl
    · rw [h.get?_iff]
      refine and_congr_left fun hkey' => (or_iff_left ?_).symm
      rintro rfl
      exact hkey hkey'.symm
  tables_iff table key := by
    rw [find?_tables_add]
    split_ifs with htable
    · constructor
      · intro hkey
        exact ⟨m, List.mem_concat_self, Option.some.inj hkey, htable⟩
      · rintro ⟨n, hn, rfl, htable'⟩
        rcases List.mem_append.mp hn with hn | hn
        · exact absurd htable' (hm.tables table htable n hn)
        · rw [List.mem_singleton.mp hn]
    · rw [h.tables_iff]
      constructor
      · rintro ⟨n, hn, hkey, htable'⟩
        exact ⟨n, List.mem_append_left _ hn, hkey, htable'⟩
      · rintro ⟨n, hn, hkey, htable'⟩
        rcases List.mem_append.mp hn with hn | hn
        · exact ⟨n, hn, hkey, htable'⟩
        · exact absurd (List.mem_singleton.mp hn ▸ htable') htable

end Holds

/-- The registry holds a log of modules whose names are all of a kind. -/
def Logged (r : Registry μ) (settings : Settings) (named : String → Prop) : Prop :=
  ∃ log, r.Holds settings log ∧ ∀ m ∈ log, named m.name

variable {named : String → Prop}

theorem Logged.settings_eq (h : r.Logged settings named) : r.settings = settings := by
  obtain ⟨log, hlog, -⟩ := h
  exact hlog.settings_eq

/-- **One registration.** It fails and changes nothing, or the log admits the module. -/
theorem Logged.register (h : r.Logged settings named) (hm : m.Checked settings)
    (hname : named m.name) : (r.register m).registry.Logged settings named := by
  obtain ⟨log, hlog, hnames⟩ := h
  unfold Registry.register
  cases hnone : r.obstacle? m with
  | some e => exact ⟨log, hlog, hnames⟩
  | none =>
    refine ⟨log ++ [m], hlog.add (hlog.admitted hm hnone), fun n hn => ?_⟩
    rcases List.mem_append.mp hn with hn | hn
    · exact hnames n hn
    · exact List.mem_singleton.mp hn ▸ hname

/-! ### Calls -/

theorem Logged.registerDefinition (h : r.Logged settings named) {d : ModuleDefinition μ}
    (hname : named d.manifest.name) : (r.registerDefinition d).registry.Logged settings named := by
  unfold Registry.registerDefinition
  rw [h.settings_eq]
  cases hvalid : d.validate settings with
  | error e => exact h
  | ok m =>
    obtain ⟨hm, heq⟩ := ModuleDefinition.checked_validate hvalid
    exact h.register hm (heq ▸ hname)

theorem Logged.registerAll (h : r.Logged settings named) {modules : Keyed String (Module μ)}
    (hmodules : ∀ key m, modules.find? key = some m → m.Checked settings ∧ named m.name)
    (keys : List String) : (r.registerAll modules keys).registry.Logged settings named := by
  induction keys generalizing r modules with
  | nil => exact h
  | cons key keys ih =>
    unfold Registry.registerAll
    cases hfind : modules.find? key with
    | none => exact ih h hmodules
    | some m =>
      obtain ⟨hm, hname⟩ := hmodules key m hfind
      have hnext := h.register hm hname
      simp only
      rcases hregister : r.register m with ⟨e | ⟨⟩, r'⟩
      · rw [hregister] at hnext
        exact hnext
      · rw [hregister] at hnext
        refine ih hnext fun key' n hn => hmodules key' n ?_
        rw [Keyed.find?_erase] at hn
        split_ifs at hn
        exact hn

theorem Logged.registerSorted (h : r.Logged settings named) {modules : List (Module μ)}
    (hmodules : ∀ m ∈ modules, m.Checked settings ∧ named m.name) :
    (r.registerSorted modules).registry.Logged settings named := by
  unfold Registry.registerSorted
  cases ModuleNode.sort modules [] with
  | error e => exact h
  | ok sorted =>
    refine h.registerAll (fun key m hm => ?_) _
    rcases Keyed.mem_of_find?_foldl_put hm with hm | hm
    · exact hmodules m hm
    · cases hm

theorem Logged.loadDirectory (h : r.Logged settings named) (files : FileTree) (dir : String)
    (mappers : MapperSet μ) (hread : ∀ name : String, versionSeparator ∉ name.toList → named name) :
    (r.loadDirectory files dir mappers).1.registry.Logged settings named := by
  unfold Registry.loadDirectory
  cases ModuleDirectory.find files dir with
  | error e => exact h
  | ok dirs =>
    simp only [h.settings_eq]
    rcases hload : ModuleDirectory.loadAll files settings mappers dirs with ⟨e | modules, left⟩
    · exact h
    · refine h.registerSorted fun m hm => ?_
      obtain ⟨hchecked, hname⟩ := ModuleDirectory.checked_loadAll hload m hm
      exact ⟨hchecked, hread m.name hname⟩

/-- A call that registers modules. -/
inductive Call (μ : Type) where
  /-- A definition is checked and its module is registered. -/
  | define (d : ModuleDefinition μ)
  /-- The modules in a directory are read and registered. -/
  | load (files : FileTree) (dir : String) (mappers : MapperSet μ)

/-- The registry that a call leaves, whether it fails or not. -/
def after (r : Registry μ) : Call μ → Registry μ
  | .define d => (r.registerDefinition d).registry
  | .load files dir mappers => (r.loadDirectory files dir mappers).1.registry

/-- The registry after a list of calls. -/
def run (r : Registry μ) (calls : List (Call μ)) : Registry μ :=
  calls.foldl after r

/-- **A run** keeps the parts of a registry together. What is known of the names in definitions and
in manifests is known of the names of all modules. -/
theorem Logged.run (h : r.Logged settings named) {calls : List (Call μ)}
    (hdefined : ∀ d, .define d ∈ calls → named d.manifest.name)
    (hread : ∀ name : String, versionSeparator ∉ name.toList → named name) :
    (r.run calls).Logged settings named := by
  induction calls generalizing r with
  | nil => exact h
  | cons call calls ih =>
    refine ih ?_ fun d hd => hdefined d (List.mem_cons_of_mem call hd)
    cases call with
    | define d => exact h.registerDefinition (hdefined d List.mem_cons_self)
    | load files dir mappers => exact h.loadDirectory files dir mappers hread

/-! ### What a registry promises -/

/-- The module of a key has another key among its dependencies. -/
def Requires (r : Registry μ) (key dependency : String) : Prop :=
  ∃ m, r.get? key = some m ∧ dependency ∈ m.dependencies

/-- The parts of a registry agree with each other, and every module was registered after all that it
depends on. -/
structure Consistent (r : Registry μ) : Prop where
  order_nodup : r.order.Nodup
  mem_order_iff : ∀ key, key ∈ r.order ↔ ∃ m, r.get? key = some m
  /-- The listed modules have these keys, in this order. -/
  keys_listed : r.listed.map Module.key = r.order
  get?_iff : ∀ key m, r.get? key = some m ↔ m ∈ r.listed ∧ m.key = key
  dependency : ∀ before m later, r.listed = before ++ m :: later →
    ∀ d ∈ m.dependencies, ∃ n ∈ before, n.key = d
  acyclic : ∀ key, ¬ TransGen r.Requires key key
  isPlatform_iff : ∀ m ∈ r.listed, m.isPlatform = true ↔ m.name = r.settings.platform
  /-- The key of the platform module is among the dependencies. -/
  platform_key : ∀ before m later, r.listed = before ++ m :: later → m.isPlatform = false →
    moduleKey r.settings.platform m.version ∈ m.dependencies ∧
      ∃ n ∈ before, n.key = moduleKey r.settings.platform m.version
  table_unique : ∀ m ∈ r.listed, ∀ n ∈ r.listed, ∀ table,
    table ∈ m.provides.tables → table ∈ n.provides.tables → m = n
  ownerOf?_iff : ∀ table m,
    r.ownerOf? table = some m ↔ m ∈ r.listed ∧ table ∈ m.provides.tables

/-- The platform module of the version of a module is registered before it, and it is one of its
dependencies. -/
def OnPlatform (r : Registry μ) : Prop :=
  ∀ before m later, r.listed = before ++ m :: later → m.isPlatform = false →
    ∃ n ∈ before, n.isPlatform = true ∧ n.version = m.version ∧ n.key ∈ m.dependencies

theorem Holds.acyclic (h : r.Holds settings log) (key : String) :
    ¬ TransGen r.Requires key key := by
  -- what a key requires, as the successors of a vertex
  let next : String → List String := fun key => ((r.get? key).map Module.dependencies).getD []
  have hnext : ∀ key dependency, Graph.Edge next key dependency ↔ r.Requires key dependency := by
    intro key dependency
    unfold Graph.Edge Requires
    cases hget : r.get? key <;> simp [next, hget]
  have hordered : Graph.Ordered next (log.map Module.key) := by
    refine h.registrable.ordered fun m hm => ?_
    simp [next, (h.get?_iff _ _).mpr ⟨hm, rfl⟩]
  intro hcycle
  obtain ⟨_, ⟨m, hget, -⟩, -⟩ := TransGen.head'_iff.mp hcycle
  obtain ⟨hm, rfl⟩ := (h.get?_iff _ _).mp hget
  exact hordered.acyclic (List.mem_map_of_mem hm)
    (TransGen.mono (fun key dependency => (hnext key dependency).mpr) _ _ hcycle)

theorem Holds.consistent (h : r.Holds settings log) : r.Consistent where
  order_nodup := h.order_eq ▸ h.registrable.nodup_keys
  mem_order_iff key := by
    rw [h.order_eq, ← h.get?_isSome_iff, Option.isSome_iff_exists]
  keys_listed := by rw [h.listed_eq, h.order_eq]
  get?_iff := by rw [h.listed_eq]; exact h.get?_iff
  dependency before m later hsplit d hd := by
    rw [h.listed_eq] at hsplit
    exact List.mem_map.mp ((h.registrable.admitted hsplit).dependencies d hd)
  acyclic := h.acyclic
  isPlatform_iff m hm := by
    rw [h.listed_eq] at hm
    rw [h.settings_eq]
    exact (h.registrable.checked hm).isPlatform_iff
  platform_key before m later hsplit hm := by
    rw [h.listed_eq] at hsplit
    rw [h.settings_eq]
    have hadmitted := h.registrable.admitted hsplit
    have hkey := hadmitted.checked.platform hm
    exact ⟨hkey, List.mem_map.mp (hadmitted.dependencies _ hkey)⟩
  table_unique m hm n hn table := by
    rw [h.listed_eq] at hm hn
    exact h.registrable.owner_unique hm hn
  ownerOf?_iff table m := by
    rw [h.listed_eq]
    exact h.ownerOf?_iff

/-- When no name has a separator in it, the key of the platform module is that of the platform
module. -/
theorem Logged.onPlatform (h : r.Logged settings fun name => versionSeparator ∉ name.toList) :
    r.OnPlatform := by
  obtain ⟨log, hlog, hnames⟩ := h
  intro before m later hsplit hm
  rw [hlog.listed_eq] at hsplit
  exact hlog.registrable.exists_platform hnames hsplit hm

theorem logged_empty (settings : Settings) (named : String → Prop) :
    (empty settings : Registry μ).Logged settings named :=
  ⟨[], holds_empty settings, nofun⟩

/-- A definition that is refused changes nothing. -/
theorem registry_of_refused {d : ModuleDefinition μ} {e : ModuleError}
    (h : (r.registerDefinition d).result = .error e) : (r.registerDefinition d).registry = r := by
  unfold registerDefinition at h ⊢
  cases hvalid : d.validate r.settings with
  | error e => rfl
  | ok m =>
    simp only [hvalid] at h ⊢
    unfold register at h ⊢
    cases hobstacle : r.obstacle? m with
    | some e => rfl
    | none =>
      rw [hobstacle] at h
      cases h

/-- **What a registry promises** after any calls, failing or not: its order lists every key once,
every module comes after those it depends on, so that no module depends on itself, and every table
has one owner. Modules depend on the platform module of their version, if the names that were
defined have no separators in them. A definition that is refused changes nothing. -/
theorem consistent_run (settings : Settings) (calls : List (Call μ)) :
    ((empty settings).run calls).settings = settings ∧ ((empty settings).run calls).Consistent ∧
    ((∀ d, .define d ∈ calls → versionSeparator ∉ d.manifest.name.toList) →
      ((empty settings).run calls).OnPlatform) ∧
    ∀ d e, (((empty settings).run calls).registerDefinition d).result = .error e →
      (((empty settings).run calls).registerDefinition d).registry =
        (empty settings).run calls := by
  obtain ⟨log, hlog, -⟩ := (logged_empty settings fun _ => True).run
    (fun d (_ : .define d ∈ calls) => trivial) fun _ _ => trivial
  refine ⟨hlog.settings_eq, hlog.consistent, fun hnames => ?_, fun d e => registry_of_refused⟩
  exact ((logged_empty settings _).run hnames fun _ hname => hname).onPlatform

/-- A definition of which only name, version, dependencies and tables matter. -/
def sketch (name version : String) (dependencies tables : List String) :
    ModuleDefinition Empty where
  manifest := ⟨name, some version, dependencies, ⟨tables, []⟩⟩
  dir := ""
  migrations := [("m.sql", "-- migrate:install\nSELECT 1;\n-- migrate:remove\nSELECT 2;\n")]
  hooks := .empty
  mappers := []

/-- A registry for which the platform module is called `p`, after some calls. -/
def sketched (calls : List (Call Empty)) : Registry Empty :=
  (empty { Settings.default with platform := "p" }).run calls

/-- Calls of which the first one and the last one fail, as a dependency is missing and a table is
taken. -/
def sketches : List (Call Empty) :=
  [.define (sketch "a" "1" ["p"] ["u"]), .define (sketch "p" "1" [] ["t"]),
    .define (sketch "a" "1" ["p"] ["u"]), .define (sketch "b" "1" ["a", "p"] ["v", "u"])]

theorem consistent_run_sketches :
    (∀ d, .define d ∈ sketches → versionSeparator ∉ d.manifest.name.toList) ∧
    (sketched sketches).order = ["p@1", "a@1"] ∧
    (sketched sketches).Consistent ∧ (sketched sketches).OnPlatform ∧
    ((sketched sketches).registerDefinition (sketch "b" "1" ["p"] ["t"])).result =
      .error (.tableCollision "t" "b@1" "p@1") ∧
    ((sketched sketches).registerDefinition (sketch "b" "1" ["p"] ["t"])).registry =
      sketched sketches := by
  have hnames : ∀ d, .define d ∈ sketches → versionSeparator ∉ d.manifest.name.toList := by
    intro d hd
    simp only [sketches, List.mem_cons, Call.define.injEq, List.not_mem_nil, or_false] at hd
    rcases hd with rfl | rfl | rfl | rfl <;> decide
  have hrefused : ((sketched sketches).registerDefinition (sketch "b" "1" ["p"] ["t"])).result =
      .error (.tableCollision "t" "b@1" "p@1") := by
    decide +kernel
  obtain ⟨-, hconsistent, hplatform, hfailed⟩ :=
    consistent_run { Settings.default with platform := "p" } sketches
  exact ⟨hnames, by decide +kernel, hconsistent, hplatform hnames, hrefused, hfailed _ _ hrefused⟩

/-- Three definitions that are accepted. The second one has a separator in its name, and thereby the
key of a platform module of version `1@2`, on which the third one depends. -/
def misnamed : List (Call Empty) :=
  [.define (sketch "p" "2" [] []), .define (sketch "p@1" "2" ["p@2"] []),
    .define (sketch "x" "1@2" ["p@1@2"] [])]

/-- The third module has no platform module of its version, before it or after it. -/
theorem not_onPlatform_misnamed :
    (sketched misnamed).order = ["p@2", "p@1@2", "x@1@2"] ∧
    (∃ m ∈ (sketched misnamed).listed, m.isPlatform = false ∧ m.version = "1@2") ∧
    (∀ n ∈ (sketched misnamed).listed, n.isPlatform = true → n.version = "2") ∧
    ¬ (sketched misnamed).OnPlatform := by
  have hother : ∃ m ∈ (sketched misnamed).listed, m.isPlatform = false ∧ m.version = "1@2" := by
    decide +kernel
  have hplatform : ∀ n ∈ (sketched misnamed).listed, n.isPlatform = true → n.version = "2" := by
    decide +kernel
  refine ⟨by decide +kernel, hother, hplatform, fun h => ?_⟩
  obtain ⟨m, hm, hm', hversion⟩ := hother
  obtain ⟨before, later, hsplit⟩ := List.append_of_mem hm
  obtain ⟨n, hn, hn', hsame, -⟩ := h before m later hsplit hm'
  have hn : n ∈ (sketched misnamed).listed := hsplit ▸ List.mem_append_left _ hn
  rw [hplatform n hn hn', hversion] at hsame
  exact absurd hsame (by decide)

end Registry

end Reconcile
