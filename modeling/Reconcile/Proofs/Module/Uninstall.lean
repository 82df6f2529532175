import Reconcile.Proofs.Module.Install

/-!
# Uninstalling modules

Modules can be uninstalled if all of them are installed and no installed module that stays depends
on one of them. Nothing else is in the way, for sorting modules of a registry never fails
(`Registry.Holds.uninstallPlan_eq_ok_iff`).

* **What stays is supported** (`Registry.uninstallPlan_safe`): if all that the installed modules
  depend on is installed, this is so afterwards as well.
* **Uninstalling undoes installing** (`Registry.uninstallPlan_installPlan`): what a plan for
  installing has brought can be uninstalled at once, in the opposite order.
* **The order** (`Registry.uninstallPlan_leafFirst_iff`). A plan lists each module as often as it is
  requested, by whatever name or key. As long as no module is requested twice, each module comes
  before all that it depends on. But a module that is requested again after one that depends on it
  is uninstalled too early: at all times but the last one, it is placed without regard to the
  others.
-/

namespace Reconcile

open Relation

variable {μ : Type} {settings : Settings} {log targets plan : List (Module μ)} {m n : Module μ}

namespace Registry

variable {r : Registry μ} {requested installed goes : List String}

/-! ### What uninstalling demands -/

theorem checkInstalled_eq_ok_iff : checkInstalled targets installed = .ok () ↔
    ∀ m ∈ targets, m.key ∈ installed ∨ m.name ∈ installed := by
  have hmissing : checkInstalled targets installed = .ok () ↔
      (targets.find? fun m => ! ModuleNode.isIn m installed) = none := by
    unfold checkInstalled
    cases targets.find? fun m => ! ModuleNode.isIn m installed <;> simp
  rw [hmissing, List.find?_eq_none]
  refine forall₂_congr fun m _ => ?_
  rw [Bool.not_eq_true', ModuleNode.isIn_eq_false_iff, not_and_or, not_not, not_not]
  rfl

/-- No installed module that stays depends on one that goes. -/
def Unneeded (r : Registry μ) (requested installed : List String) : Prop :=
  ∀ m, r.Requested installed m → ¬ r.Requested requested m →
    ∀ n, r.Requested requested n → n.key ∉ m.dependencies

theorem blockedBy?_eq_none_iff {text : String} : r.blockedBy? targets text = none ↔
    ∀ m, r.find? text = some m → contains targets m = false →
      ∀ n ∈ targets, n.key ∉ m.dependencies := by
  unfold blockedBy?
  cases r.find? text with
  | none => simp
  | some m =>
    simp only [Option.bind_some, Option.some.injEq, forall_eq']
    split_ifs with hstays
    · simp [hstays]
    · simp only [Option.map_eq_none_iff, List.find?_eq_none, List.any_eq_true, beq_iff_eq,
        not_exists, not_and, Bool.not_eq_true] at hstays ⊢
      constructor
      · exact fun h _ n hn hd => h _ hd n hn rfl
      · exact fun h d hd n hn hkey => h hstays n hn (hkey ▸ hd)

theorem Holds.checkUnneeded_eq_ok_iff (h : r.Holds settings log) :
    r.checkUnneeded (requested.filterMap r.find?) installed = .ok () ↔
      r.Unneeded requested installed := by
  have hnone : r.checkUnneeded (requested.filterMap r.find?) installed = .ok () ↔
      installed.findSome? (r.blockedBy? (requested.filterMap r.find?)) = none := by
    unfold checkUnneeded
    cases installed.findSome? (r.blockedBy? (requested.filterMap r.find?)) <;> simp
  have htargets := h.known_of_requested requested
  have hstays : ∀ m ∈ log, contains (requested.filterMap r.find?) m = false ↔
      ¬ r.Requested requested m := fun m hm => by
    rw [Bool.eq_false_iff, Ne, h.contains_iff htargets hm, mem_filterMap_find?_iff]
  rw [hnone, List.findSome?_eq_none_iff]
  simp only [blockedBy?_eq_none_iff, mem_filterMap_find?_iff]
  constructor
  · rintro hnone m ⟨text, htext, hfind⟩ hm
    exact hnone text htext m hfind ((hstays m (h.mem_of_find? hfind)).mpr hm)
  · intro hunneeded text htext m hfind hm
    exact hunneeded m ⟨text, htext, hfind⟩ ((hstays m (h.mem_of_find? hfind)).mp hm)

/-- **When uninstalling succeeds**, and what the plan is then. -/
theorem Holds.uninstallPlan_eq_ok_iff (h : r.Holds settings log) :
    r.uninstallPlan requested installed = .ok plan ↔
      r.AllFound requested ∧
      (∀ m, r.Requested requested m → m.key ∈ installed ∨ m.name ∈ installed) ∧
      r.Unneeded requested installed ∧
      ModuleNode.sort (requested.filterMap r.find?) [] = .ok plan.reverse := by
  have huninstall : r.uninstallPlan requested installed =
      (requested.mapM r.resolve).bind fun targets =>
        (checkInstalled targets installed).bind fun _ =>
          (r.checkUnneeded targets installed).bind fun _ =>
            (ModuleNode.sort targets []).bind fun sorted => .ok sorted.reverse := rfl
  rw [← h.checkUnneeded_eq_ok_iff]
  simp only [← mem_filterMap_find?_iff]
  rw [← checkInstalled_eq_ok_iff, huninstall]
  constructor
  · intro hplan
    obtain ⟨targets, hresolve, hplan⟩ := exists_of_bind_eq_ok hplan
    obtain ⟨⟨⟩, hinstalled, hplan⟩ := exists_of_bind_eq_ok hplan
    obtain ⟨⟨⟩, hunneeded, hplan⟩ := exists_of_bind_eq_ok hplan
    obtain ⟨sorted, hsort, hplan⟩ := exists_of_bind_eq_ok hplan
    obtain rfl := Except.ok.inj hplan
    rcases r.allFound_or_missing requested with hfound | hmissing
    · obtain rfl := Except.ok.inj (hresolve.symm.trans (mapM_resolve_of_found hfound))
      exact ⟨hfound, hinstalled, hunneeded, by rwa [List.reverse_reverse]⟩
    · obtain ⟨_, -, -, herror⟩ := exists_mapM_resolve_of_missing hmissing
      cases hresolve.symm.trans herror
  · rintro ⟨hfound, hinstalled, hunneeded, hsort⟩
    simp only [mapM_resolve_of_found hfound, Except.bind, hinstalled, hunneeded, hsort,
      List.reverse_reverse]

/-- Modules that are requested can be sorted. -/
theorem Holds.exists_sort_requested (h : r.Holds settings log) (requested : List String) :
    ∃ sorted, ModuleNode.sort (requested.filterMap r.find?) [] = .ok sorted ∧
      sorted.Perm (requested.filterMap r.find?) :=
  ModuleNode.exists_sort (h.acyclic_dependsOn (h.known_of_requested requested))

theorem Holds.exists_uninstallPlan_iff (h : r.Holds settings log) :
    (∃ plan, r.uninstallPlan requested installed = .ok plan) ↔
      r.AllFound requested ∧
      (∀ m, r.Requested requested m → m.key ∈ installed ∨ m.name ∈ installed) ∧
      r.Unneeded requested installed := by
  constructor
  · rintro ⟨plan, hplan⟩
    obtain ⟨hfound, hinstalled, hunneeded, -⟩ := h.uninstallPlan_eq_ok_iff.mp hplan
    exact ⟨hfound, hinstalled, hunneeded⟩
  · rintro ⟨hfound, hinstalled, hunneeded⟩
    obtain ⟨sorted, hsort, -⟩ := h.exists_sort_requested requested
    refine ⟨sorted.reverse, h.uninstallPlan_eq_ok_iff.mpr ⟨hfound, hinstalled, hunneeded, ?_⟩⟩
    rwa [List.reverse_reverse]

/-- A plan lists each module as often as it is requested. -/
theorem Holds.perm_of_uninstallPlan (h : r.Holds settings log)
    (hplan : r.uninstallPlan requested installed = .ok plan) :
    plan.Perm (requested.filterMap r.find?) := by
  obtain ⟨-, -, -, hsort⟩ := h.uninstallPlan_eq_ok_iff.mp hplan
  obtain ⟨sorted, hsort', hperm⟩ := h.exists_sort_requested requested
  obtain rfl := Except.ok.inj (hsort.symm.trans hsort')
  exact (List.reverse_perm plan).symm.trans hperm

theorem Holds.mem_uninstallPlan_iff (h : r.Holds settings log)
    (hplan : r.uninstallPlan requested installed = .ok plan) :
    m ∈ plan ↔ r.Requested requested m := by
  rw [(h.perm_of_uninstallPlan hplan).mem_iff, mem_filterMap_find?_iff]

/-! ### The order -/

/-- Each module stands before those that it depends on. -/
def LeafFirst (plan : List (Module μ)) : Prop :=
  plan.Pairwise fun m n => m.key ∉ n.dependencies

theorem Holds.leafFirst_iff (h : r.Holds settings log)
    (hplan : r.uninstallPlan requested installed = .ok plan) :
    LeafFirst plan ↔
      ∀ (i j k : Nat) (n m : Module μ), i < j → j < k →
        (requested.filterMap r.find?)[i]? = some n → (requested.filterMap r.find?)[j]? = some m →
        (requested.filterMap r.find?)[k]? = some m →
        ¬ TransGen (ModuleNode.DependsOn (requested.filterMap r.find?)) n m := by
  have htargets := h.known_of_requested requested
  obtain ⟨-, -, -, hsort⟩ := h.uninstallPlan_eq_ok_iff.mp hplan
  have hperm := h.perm_of_uninstallPlan hplan
  rw [← (h.pinned htargets).pairwise_sort_iff (h.acyclic_dependsOn htargets) hsort,
    List.pairwise_reverse]
  refine List.Pairwise.iff_of_mem fun {m n} hm hn => ?_
  rw [h.dependsOn_iff htargets (hperm.mem_iff.mp hn), not_and]
  exact ⟨fun hkey _ => hkey, fun hkey => hkey (hperm.mem_iff.mp hm)⟩

/-- **The order of uninstalling**, in every registry that calls can make: a plan that succeeds lists
each module as often as it is requested. So it lists exactly the requested modules, each once and
before all that it depends on, if and only if no module is requested twice. The order alone is right
if and only if no module is requested again after one that depends on it, directly or through
others that are requested. -/
theorem uninstallPlan_leafFirst_iff {calls : List (Call μ)}
    (hr : (empty settings).run calls = r) (htargets : requested.filterMap r.find? = targets)
    (hplan : r.uninstallPlan requested installed = .ok plan) :
    plan.Perm targets ∧
    ((plan.Nodup ∧ (∀ m, m ∈ plan ↔ r.Requested requested m) ∧ LeafFirst plan) ↔
      targets.Nodup) ∧
    (LeafFirst plan ↔
      ∀ (i j k : Nat) (n m : Module μ), i < j → j < k → targets[i]? = some n →
        targets[j]? = some m → targets[k]? = some m →
        ¬ TransGen (ModuleNode.DependsOn targets) n m) := by
  obtain ⟨log, hlog⟩ := exists_holds_run settings calls
  rw [hr] at hlog
  have hperm := hlog.perm_of_uninstallPlan hplan
  have horder := hlog.leafFirst_iff hplan
  subst htargets
  refine ⟨hperm, ⟨fun h => hperm.nodup_iff.mp h.1, fun hnodup => ?_⟩, horder⟩
  refine ⟨hperm.nodup_iff.mpr hnodup, fun m => hlog.mem_uninstallPlan_iff hplan, horder.mpr ?_⟩
  intro i j k n m _ hjk _ hj hk
  obtain ⟨hlt, -⟩ := List.getElem?_eq_some_iff.mp hj
  exact absurd ((List.getElem?_inj hlt hnodup).mp (hj.trans hk.symm)) (Nat.ne_of_lt hjk)

/-- A plan whose keys and dependencies are known. -/
theorem exists_plan_of_rows {result : Except ModuleError (List (Module μ))}
    {rows : List (String × List String)}
    (h : result.map (List.map fun m => (m.key, m.dependencies)) = .ok rows) :
    ∃ plan, result = .ok plan ∧ plan.map Module.key = rows.map Prod.fst ∧
      (LeafFirst plan ↔ rows.Pairwise fun row row' => row.1 ∉ row'.2) := by
  obtain ⟨plan, hplan, rfl⟩ := exists_of_map_eq_ok h
  refine ⟨plan, hplan, ?_, ?_⟩
  · rw [List.map_map]
    rfl
  · rw [LeafFirst, List.pairwise_map]

/-- A module that is requested twice, each time before the one that depends on it. -/
theorem uninstallPlan_leafFirst_iff_repeated :
    ∃ plan, (sketched chained).uninstallPlan ["a", "a@1", "b"] ["p", "a", "b"] = .ok plan ∧
      plan.map Module.key = ["b@1", "a@1", "a@1"] ∧ LeafFirst plan ∧
      plan.Perm (["a", "a@1", "b"].filterMap (sketched chained).find?) := by
  have hrows : ((sketched chained).uninstallPlan ["a", "a@1", "b"] ["p", "a", "b"]).map
      (List.map fun m => (m.key, m.dependencies)) =
      .ok [("b@1", ["a@1", "p@1"]), ("a@1", ["p@1"]), ("a@1", ["p@1"])] := by
    decide +kernel
  obtain ⟨plan, hplan, hkeys, horder⟩ := exists_plan_of_rows hrows
  exact ⟨plan, hplan, hkeys, horder.mpr (by decide),
    (uninstallPlan_leafFirst_iff (rfl : _ = sketched chained) rfl hplan).1⟩

/-- A module that is requested by its name and by its key, after one that depends on it, is
uninstalled twice, and the first time too early. -/
theorem uninstalled_too_early :
    ∃ plan, (sketched chained).uninstallPlan ["b", "a", "a@1"] ["p@1", "a@1", "b@1"] = .ok plan ∧
      plan.map Module.key = ["a@1", "b@1", "a@1"] ∧ ¬ (plan.map Module.key).Nodup ∧
      ¬ LeafFirst plan := by
  have hrows : ((sketched chained).uninstallPlan ["b", "a", "a@1"] ["p@1", "a@1", "b@1"]).map
      (List.map fun m => (m.key, m.dependencies)) =
      .ok [("a@1", ["p@1"]), ("b@1", ["a@1", "p@1"]), ("a@1", ["p@1"])] := by
    decide +kernel
  obtain ⟨plan, hplan, hkeys, horder⟩ := exists_plan_of_rows hrows
  exact ⟨plan, hplan, hkeys, hkeys ▸ by decide, mt horder.mp (by decide)⟩

/-! ### What stays -/

/-- A list of keys stands for the modules that have them. -/
theorem Holds.requested_iff_of_keys (h : r.Holds settings log)
    (hkeys : ∀ text ∈ installed, ∃ name version, text = moduleKey name version) :
    r.Requested installed m ↔ m ∈ log ∧ m.key ∈ installed := by
  constructor
  · rintro ⟨text, htext, hfind⟩
    obtain ⟨name, version, rfl⟩ := hkeys text htext
    obtain ⟨hm, hkey⟩ := (h.find?_eq_some_iff (isBareName_moduleKey name version)).mp hfind
    exact ⟨hm, hkey ▸ htext⟩
  · rintro ⟨hm, hkey⟩
    exact ⟨m.key, hkey, h.find?_key hm⟩

/-- All that installed modules depend on is installed. -/
def Supported (r : Registry μ) (installed : List String) : Prop :=
  ∀ m ∈ r.listed, m.key ∈ installed → ∀ d ∈ m.dependencies, d ∈ installed

instance (r : Registry μ) (installed : List String) : Decidable (r.Supported installed) :=
  inferInstanceAs
    (Decidable (∀ m ∈ r.listed, m.key ∈ installed → ∀ d ∈ m.dependencies, d ∈ installed))

/-- What stays is supported, if all that is installed was. -/
theorem Holds.supported_of_uninstallPlan (h : r.Holds settings log)
    (hkeys : ∀ text ∈ installed, ∃ name version, text = moduleKey name version)
    (hplan : r.uninstallPlan requested installed = .ok plan) (hsupported : r.Supported installed) :
    r.Supported (installed.filter fun key => decide (key ∉ plan.map Module.key)) := by
  intro m hm hkey d hd
  obtain ⟨-, -, hunneeded, -⟩ := h.uninstallPlan_eq_ok_iff.mp hplan
  obtain ⟨hinstalled, hkey⟩ := List.mem_filter.mp hkey
  rw [decide_eq_true_iff] at hkey
  have hstays : ¬ r.Requested requested m := fun hgoes =>
    hkey (List.mem_map_of_mem ((h.mem_uninstallPlan_iff hplan).mpr hgoes))
  refine List.mem_filter.mpr ⟨hsupported m hm hinstalled d hd, decide_eq_true fun hgoes => ?_⟩
  obtain ⟨n, hn, rfl⟩ := List.mem_map.mp hgoes
  have hm' : r.Requested installed m :=
    (h.requested_iff_of_keys hkeys).mpr ⟨h.listed_eq ▸ hm, hinstalled⟩
  exact hunneeded m hm' hstays n ((h.mem_uninstallPlan_iff hplan).mp hn) hd

/-- **Uninstalling is safe**, in every registry that calls can make, as long as no module has a
separator in its name. It succeeds exactly if all that is requested is registered and installed, and
no installed module that stays depends on a module that goes. So what stays is supported, if all
that is installed was. -/
theorem uninstallPlan_safe {calls : List (Call μ)} (hr : (empty settings).run calls = r)
    (hnames : ∀ m ∈ r.listed, versionSeparator ∉ m.name.toList)
    (requested : List String) {installed : List String}
    (hkeys : ∀ text ∈ installed, ∃ name version, text = moduleKey name version) :
    ((∃ plan, r.uninstallPlan requested installed = .ok plan) ↔
      (∀ text ∈ requested, ∃ m, r.find? text = some m ∧ m.key ∈ installed) ∧
      ∀ m ∈ r.listed, m.key ∈ installed → ¬ r.Requested requested m →
        ∀ n, r.Requested requested n → n.key ∉ m.dependencies) ∧
    ∀ plan, r.uninstallPlan requested installed = .ok plan → r.Supported installed →
      r.Supported (installed.filter fun key => decide (key ∉ plan.map Module.key)) := by
  obtain ⟨log, hlog⟩ := exists_holds_run settings calls
  rw [hr] at hlog
  -- an entry with a separator is no name
  have hname : ∀ m ∈ log, m.name ∉ installed := by
    intro m hm hmem
    obtain ⟨name, version, heq⟩ := hkeys m.name hmem
    exact hnames m (hlog.listed_eq ▸ hm) (by simp [heq, toList_moduleKey])
  have hunneeded : r.Unneeded requested installed ↔
      ∀ m ∈ r.listed, m.key ∈ installed → ¬ r.Requested requested m →
        ∀ n, r.Requested requested n → n.key ∉ m.dependencies := by
    simp only [Unneeded, hlog.requested_iff_of_keys hkeys, hlog.listed_eq, and_imp]
  refine ⟨?_, fun plan => hlog.supported_of_uninstallPlan hkeys⟩
  rw [hlog.exists_uninstallPlan_iff, hunneeded, ← and_assoc]
  refine and_congr_left fun _ => ⟨?_, fun h => ⟨?_, ?_⟩⟩
  · rintro ⟨hfound, hinstalled⟩ text htext
    obtain ⟨m, hm⟩ := hfound text htext
    exact ⟨m, hm, (hinstalled m ⟨text, htext, hm⟩).resolve_right (hname m (hlog.mem_of_find? hm))⟩
  · intro text htext
    obtain ⟨m, hm, -⟩ := h text htext
    exact ⟨m, hm⟩
  · rintro m ⟨text, htext, hm⟩
    obtain ⟨n, hn, hkey⟩ := h text htext
    obtain rfl := Option.some.inj (hm.symm.trans hn)
    exact Or.inl hkey

/-- The module `b` can be uninstalled, but not the module `a`, on which `b` depends. -/
theorem uninstallPlan_safe_chained :
    (∀ m ∈ (sketched chained).listed, versionSeparator ∉ m.name.toList) ∧
    (∀ text ∈ ["p@1", "a@1", "b@1"], ∃ name version, text = moduleKey name version) ∧
    (∃ plan, (sketched chained).uninstallPlan ["b"] ["p@1", "a@1", "b@1"] = .ok plan ∧
      plan.map Module.key = ["b@1"] ∧ (sketched chained).Supported
        (["p@1", "a@1", "b@1"].filter fun key => decide (key ∉ plan.map Module.key))) ∧
    ¬ ∃ plan, (sketched chained).uninstallPlan ["a"] ["p@1", "a@1", "b@1"] = .ok plan := by
  have hnames : ∀ m ∈ (sketched chained).listed, versionSeparator ∉ m.name.toList := by
    decide +kernel
  have hkeys : ∀ text ∈ ["p@1", "a@1", "b@1"], ∃ name version, text = moduleKey name version := by
    simp only [List.forall_mem_cons]
    exact ⟨⟨"p", "1", rfl⟩, ⟨"a", "1", rfl⟩, ⟨"b", "1", rfl⟩, nofun⟩
  have hsupported : (sketched chained).Supported ["p@1", "a@1", "b@1"] := by decide +kernel
  have hrows : ((sketched chained).uninstallPlan ["b"] ["p@1", "a@1", "b@1"]).map
      (List.map fun m => (m.key, m.dependencies)) = .ok [("b@1", ["a@1", "p@1"])] := by
    decide +kernel
  have hrefused : ((sketched chained).uninstallPlan ["a"] ["p@1", "a@1", "b@1"]).map
      (List.map Module.key) = .error (.stillRequired "b@1" "a@1") := by
    decide +kernel
  obtain ⟨plan, hplan, hplanned, -⟩ := exists_plan_of_rows hrows
  obtain ⟨-, hsafe⟩ := uninstallPlan_safe (rfl : _ = sketched chained) hnames ["b"] hkeys
  refine ⟨hnames, hkeys, ⟨plan, hplan, hplanned, hsafe plan hplan hsupported⟩, ?_⟩
  rintro ⟨plan, hplan⟩
  rw [hplan] at hrefused
  cases hrefused

/-! ### Installing and uninstalling -/

/-- Modules are named by their keys. -/
theorem Holds.filterMap_find?_keys (h : r.Holds settings log) (hplan : ∀ m ∈ plan, m ∈ log) :
    (plan.map Module.key).filterMap r.find? = plan := by
  have hself : ∀ m ∈ plan, (r.find? ∘ Module.key) m = some m := fun m hm =>
    h.find?_key (hplan m hm)
  rw [List.filterMap_map, List.filterMap_congr hself, List.filterMap_some]

/-- Nothing that is installed depends on what a plan brings. -/
theorem Holds.unneeded_planned (h : r.Holds settings log)
    (hkeys : ∀ text ∈ installed, ∃ name version, text = moduleKey name version)
    (hsupported : r.Supported installed) (hgoes : ∀ n, r.Requested goes n →
      n ∈ r.planned requested installed) :
    r.Unneeded goes (installed ++ goes) := by
  rintro m ⟨text, htext, hfind⟩ hstays n hn hd
  have hinstalled : text ∈ installed :=
    (List.mem_append.mp htext).resolve_right fun htext => hstays ⟨text, htext, hfind⟩
  obtain ⟨hm, hkey⟩ := (h.requested_iff_of_keys hkeys).mp ⟨text, hinstalled, hfind⟩
  -- what an installed module depends on is installed, and so it is not in the plan
  exact (mem_planned_iff.mp (hgoes n hn)).2.2.1 (hsupported m (h.listed_eq ▸ hm) hkey n.key hd)

/-- **Uninstalling undoes installing**, in every registry that calls can make: if the installed
modules are supported, what a plan for installing brings can be uninstalled at once, and in the
opposite order. -/
theorem uninstallPlan_installPlan {calls : List (Call μ)} (hr : (empty settings).run calls = r)
    (hfound : r.AllFound requested)
    (hkeys : ∀ text ∈ installed, ∃ name version, text = moduleKey name version)
    (hsupported : r.Supported installed) :
    ∃ plan, r.installPlan requested installed = .ok plan ∧
      r.uninstallPlan (plan.map Module.key) (installed ++ plan.map Module.key) =
        .ok plan.reverse := by
  obtain ⟨log, hlog⟩ := exists_holds_run settings calls
  rw [hr] at hlog
  refine ⟨r.planned requested installed, hlog.installPlan_eq hfound, ?_⟩
  have hsublist : (r.planned requested installed).Sublist log := hlog.planned_sublist
  have htargets := hlog.filterMap_find?_keys fun m hm => hsublist.subset hm
  have hrequested : ∀ m, r.Requested ((r.planned requested installed).map Module.key) m ↔
      m ∈ r.planned requested installed := fun m => by
    rw [← mem_filterMap_find?_iff, htargets]
  refine hlog.uninstallPlan_eq_ok_iff.mpr ⟨fun text htext => ?_, fun m hm => ?_,
    hlog.unneeded_planned hkeys hsupported fun n => (hrequested n).mp, ?_⟩
  · obtain ⟨m, hm, rfl⟩ := List.mem_map.mp htext
    exact ⟨m, hlog.find?_key (hsublist.subset hm)⟩
  · exact Or.inl (List.mem_append_right _ (List.mem_map_of_mem ((hrequested m).mp hm)))
  · have hall : ((r.planned requested installed).filter fun m => ! ModuleNode.isIn m []) =
        r.planned requested installed := List.filter_eq_self.mpr fun _ _ => rfl
    rw [htargets, hlog.sort_of_sublist hsublist, hall, List.reverse_reverse]

/-- What is brought to two modules, one of which has nothing to do with it. -/
theorem uninstallPlan_installPlan_chained :
    (sketched chained).AllFound ["b"] ∧
    (∀ text ∈ ["p@1", "q@1"], ∃ name version, text = moduleKey name version) ∧
    (sketched chained).Supported ["p@1", "q@1"] ∧
    ∃ plan, (sketched chained).installPlan ["b"] ["p@1", "q@1"] = .ok plan ∧
      plan.map Module.key = ["a@1", "b@1"] ∧
      (sketched chained).uninstallPlan ["a@1", "b@1"] ["p@1", "q@1", "a@1", "b@1"] =
        .ok plan.reverse := by
  have hfound : (sketched chained).AllFound ["b"] := by
    simp only [AllFound, ← Option.isSome_iff_exists]
    decide +kernel
  have hkeys : ∀ text ∈ ["p@1", "q@1"], ∃ name version, text = moduleKey name version := by
    simp only [List.forall_mem_cons]
    exact ⟨⟨"p", "1", rfl⟩, ⟨"q", "1", rfl⟩, nofun⟩
  have hsupported : (sketched chained).Supported ["p@1", "q@1"] := by decide +kernel
  have hrows : ((sketched chained).installPlan ["b"] ["p@1", "q@1"]).map
      (List.map fun m => (m.key, m.dependencies)) =
      .ok [("a@1", ["p@1"]), ("b@1", ["a@1", "p@1"])] := by
    decide +kernel
  obtain ⟨plan, hplan, hplanned, -⟩ := exists_plan_of_rows hrows
  obtain ⟨plan', hplan', hback⟩ :=
    uninstallPlan_installPlan (rfl : _ = sketched chained) hfound hkeys hsupported
  obtain rfl := Except.ok.inj (hplan.symm.trans hplan')
  rw [hplanned] at hback
  exact ⟨hfound, hkeys, hsupported, plan, hplan, hplanned, hback⟩

end Registry

end Reconcile
