import Reconcile.Module.Sort
import Reconcile.Proofs.Graph.PostOrder
import Reconcile.Proofs.Module.Key

/-!
# What modules depend on

Modules are sorted by their positions in a list. Here it is said without positions which module a
dependency means (`ModuleNode.Means`), and which modules depend on which
(`ModuleNode.DependsOn`). The positions that the sort goes along are always those of modules that
depend on each other (`ModuleNode.dependsOn_of_edge`). When the keys are distinct, a module has one
position, and the two views agree: on single dependencies (`ModuleNode.edge_successors_iff`), on
chains of them (`ModuleNode.transGen_successors_iff`) and on cycles (`ModuleNode.exists_cycle`).
-/

namespace Reconcile.ModuleNode

open Relation

variable {α : Type} [ModuleNode α]

/-- The module that a dependency means: the one of this key, or, if the dependency has no version,
the first one of this name. -/
def Means (modules : List α) (dependency : String) (n : α) : Prop :=
  (n ∈ modules ∧ key n = dependency) ∨
    (versionSeparator ∉ dependency.toList ∧
      modules.find? (fun m => name m == dependency) = some n)

/-- One of the dependencies of a module means the other one. -/
def DependsOn (modules : List α) (m n : α) : Prop :=
  ∃ dependency ∈ dependencies m, Means modules dependency n

variable {modules : List α} {m n : α} {i j : Nat}

theorem Means.mem {dependency : String} (h : Means modules dependency n) : n ∈ modules := by
  rcases h with ⟨hn, -⟩ | ⟨-, hn⟩
  · exact hn
  · exact List.mem_of_find?_eq_some hn

theorem DependsOn.mem (h : DependsOn modules m n) : n ∈ modules := by
  obtain ⟨_, -, hmeans⟩ := h
  exact hmeans.mem

/-! ### Positions -/

/-- Two positions with one key are one position. -/
theorem position_inj (hkeys : (modules.map key).Nodup) (hi : modules[i]? = some m)
    (hj : modules[j]? = some n) (hkey : key m = key n) : i = j := by
  have hi' : (modules.map key)[i]? = some (key m) := by rw [List.getElem?_map, hi, Option.map_some]
  have hj' : (modules.map key)[j]? = some (key n) := by rw [List.getElem?_map, hj, Option.map_some]
  obtain ⟨hlt, -⟩ := List.getElem?_eq_some_iff.mp hi'
  exact (List.getElem?_inj hlt hkeys).mp (hi'.trans (hkey ▸ hj'.symm))

/-- The position that is found for a key is one of a module of this key. -/
theorem exists_of_positionOfKey? {k : String} (h : positionOfKey? modules k = some i) :
    ∃ n, modules[i]? = some n ∧ key n = k := by
  simpa [Option.any_eq_true] using List.find?_some h

/-- A position is found for the key of each module. -/
theorem exists_positionOfKey? (hn : n ∈ modules) :
    ∃ i, positionOfKey? modules (key n) = some i := by
  obtain ⟨i, hi⟩ := List.mem_iff_getElem?.mp hn
  obtain ⟨hlt, -⟩ := List.getElem?_eq_some_iff.mp hi
  refine Option.isSome_iff_exists.mp (List.find?_isSome.mpr ⟨i, ?_, ?_⟩)
  · simpa using hlt
  · simp [hi]

theorem positionOfKey?_eq_some_iff (hkeys : (modules.map key).Nodup) {k : String} :
    positionOfKey? modules k = some i ↔ ∃ n, modules[i]? = some n ∧ key n = k := by
  refine ⟨exists_of_positionOfKey?, ?_⟩
  rintro ⟨n, hi, rfl⟩
  obtain ⟨j, hj⟩ := exists_positionOfKey? (List.mem_of_getElem? hi)
  obtain ⟨n', hj', hkey⟩ := exists_of_positionOfKey? hj
  rw [hj, position_inj hkeys hi hj' hkey.symm]

/-- A dependency with a version means a key. -/
theorem position?_of_versioned {dependency : String} (h : isBareName dependency = false) :
    position? modules dependency = positionOfKey? modules dependency := by
  unfold position?
  cases positionOfKey? modules dependency with
  | some i => rfl
  | none => simp [h]

/-- A dependency without a version means the first module of the name, as it is no key. -/
theorem position?_of_bare {dependency : String} (h : isBareName dependency = true) :
    position? modules dependency = modules.findIdx? fun m => name m == dependency := by
  have hnone : positionOfKey? modules dependency = none := by
    refine Option.eq_none_iff_forall_ne_some.mpr fun i hi => ?_
    obtain ⟨n, -, rfl⟩ := exists_of_positionOfKey? hi
    rw [key, isBareName_moduleKey] at h
    exact Bool.false_ne_true h
  simp [position?, hnone, h]

/-- The position that is found for a dependency is one of a module that it means. -/
theorem exists_of_position? {dependency : String} (h : position? modules dependency = some i) :
    ∃ n, modules[i]? = some n ∧ Means modules dependency n := by
  cases hbare : isBareName dependency with
  | false =>
    rw [position?_of_versioned hbare] at h
    obtain ⟨n, hi, hn⟩ := exists_of_positionOfKey? h
    exact ⟨n, hi, Or.inl ⟨List.mem_of_getElem? hi, hn⟩⟩
  | true =>
    rw [position?_of_bare hbare] at h
    obtain ⟨hlt, -⟩ := List.findIdx?_eq_some_iff_getElem.mp h
    have hi := List.getElem?_eq_getElem hlt
    refine ⟨_, hi, Or.inr ⟨isBareName_iff.mp hbare, ?_⟩⟩
    rw [List.find?_eq_bind_findIdx?_getElem?, h]
    exact hi

theorem position?_eq_some_iff (hkeys : (modules.map key).Nodup) {dependency : String} :
    position? modules dependency = some i ↔
      ∃ n, modules[i]? = some n ∧ Means modules dependency n := by
  refine ⟨exists_of_position?, ?_⟩
  rintro ⟨n, hi, ⟨-, rfl⟩ | ⟨hbare, hn⟩⟩
  · rw [position?_of_versioned (by rw [key, isBareName_moduleKey])]
    exact (positionOfKey?_eq_some_iff hkeys).mpr ⟨n, hi, rfl⟩
  · rw [List.find?_eq_bind_findIdx?_getElem?] at hn
    obtain ⟨j, hfirst, hj⟩ := Option.bind_eq_some_iff.mp hn
    rw [position?_of_bare (isBareName_iff.mpr hbare), hfirst, position_inj hkeys hi hj rfl]

/-! ### Dependencies and positions -/

/-- The walk goes from a position to the one that a dependency of its module means. -/
theorem edge_successors_iff_position? : Graph.Edge (successors modules) i j ↔
    ∃ m, modules[i]? = some m ∧ ∃ d ∈ dependencies m, position? modules d = some j := by
  unfold Graph.Edge successors
  cases modules[i]? with
  | none => simp
  | some m => simp

/-- The walk goes from modules to modules that they depend on. -/
theorem dependsOn_of_edge (h : Graph.Edge (successors modules) i j) :
    ∃ m n, modules[i]? = some m ∧ modules[j]? = some n ∧ DependsOn modules m n := by
  obtain ⟨m, hi, dependency, hmem, hposition⟩ := edge_successors_iff_position?.mp h
  obtain ⟨n, hj, hmeans⟩ := exists_of_position? hposition
  exact ⟨m, n, hi, hj, dependency, hmem, hmeans⟩

theorem lt_length_of_edge (h : Graph.Edge (successors modules) i j) : j < modules.length := by
  obtain ⟨-, n, -, hn, -⟩ := dependsOn_of_edge h
  exact (List.getElem?_eq_some_iff.mp hn).1

theorem transGen_of_successors (h : TransGen (Graph.Edge (successors modules)) i j) :
    ∃ m n, modules[i]? = some m ∧ modules[j]? = some n ∧ TransGen (DependsOn modules) m n := by
  induction h with
  | single hedge =>
    obtain ⟨m, n, hi, hj, hdepends⟩ := dependsOn_of_edge hedge
    exact ⟨m, n, hi, hj, .single hdepends⟩
  | tail _ hedge ih =>
    obtain ⟨m, n, hi, hn, hreach⟩ := ih
    obtain ⟨n', l, hn', hl, hdepends⟩ := dependsOn_of_edge hedge
    obtain rfl := Option.some.inj (hn.symm.trans hn')
    exact ⟨m, l, hi, hl, hreach.tail hdepends⟩

theorem edge_successors_iff (hkeys : (modules.map key).Nodup) :
    Graph.Edge (successors modules) i j ↔
      ∃ m n, modules[i]? = some m ∧ modules[j]? = some n ∧ DependsOn modules m n := by
  refine ⟨dependsOn_of_edge, ?_⟩
  rintro ⟨m, n, hi, hj, dependency, hmem, hmeans⟩
  exact edge_successors_iff_position?.mpr
    ⟨m, hi, dependency, hmem, (position?_eq_some_iff hkeys).mpr ⟨n, hj, hmeans⟩⟩

/-- A module depends on another one, directly or through others, exactly if the walk can come from
its position to that of the other. -/
theorem transGen_successors_iff (hkeys : (modules.map key).Nodup) :
    TransGen (Graph.Edge (successors modules)) i j ↔
      ∃ m n, modules[i]? = some m ∧ modules[j]? = some n ∧ TransGen (DependsOn modules) m n := by
  refine ⟨transGen_of_successors, ?_⟩
  rintro ⟨m, n, hi, hj, h⟩
  induction h generalizing j with
  | single hdepends => exact .single ((edge_successors_iff hkeys).mpr ⟨_, _, hi, hj, hdepends⟩)
  | @tail n _ hreach hdepends ih =>
    obtain ⟨_, -, hn⟩ := TransGen.tail'_iff.mp hreach
    obtain ⟨k, hk⟩ := List.mem_iff_getElem?.mp hn.mem
    exact .tail (ih hk) ((edge_successors_iff hkeys).mpr ⟨_, _, hk, hj, hdepends⟩)

/-! ### Modules at positions -/

/-- All modules, position by position. -/
theorem atPositions_range {β : Type} (modules : List β) :
    atPositions modules (List.range modules.length) = modules := by
  unfold atPositions
  induction modules with
  | nil => rfl
  | cons m modules ih =>
    rw [List.length_cons, List.range_succ_eq_map, List.filterMap_cons, List.filterMap_map]
    exact congrArg (m :: ·) ih

/-- At all positions, each once, are all modules, each as often as it is given. -/
theorem perm_atPositions {β : Type} {modules : List β} {order : List Nat}
    (h : order.Perm (List.range modules.length)) : (atPositions modules order).Perm modules := by
  have hpositions : (atPositions modules order).Perm
      (atPositions modules (List.range modules.length)) := h.filterMap _
  rwa [atPositions_range] at hpositions

/-- The modules on a cycle of positions. -/
theorem exists_cycle (hkeys : (modules.map key).Nodup) {cycle : List Nat}
    (hcycle : Graph.IsCycle (successors modules) cycle) (hknown : ∀ i ∈ cycle, i < modules.length) :
    ∃ m path, atPositions modules cycle = m :: path ++ [m] ∧ (∀ n ∈ m :: path, n ∈ modules) ∧
      ((m :: path).map key).Nodup ∧ (m :: path ++ [m]).IsChain (DependsOn modules) := by
  obtain ⟨i, positions, rfl, hnodup, hchain⟩ := hcycle
  -- all positions have a module, so there is a function that gives it
  let m := modules.get ⟨i, hknown i List.mem_cons_self⟩
  let moduleAt : Nat → α := fun j => (modules[j]?).getD m
  have hat : ∀ j ∈ i :: positions ++ [i], modules[j]? = some (moduleAt j) := fun j hj => by
    simp [moduleAt, List.getElem?_eq_getElem (hknown j hj)]
  have hmap : atPositions modules (i :: positions ++ [i]) =
      (i :: positions ++ [i]).map moduleAt := by
    rw [← List.filterMap_eq_map]
    exact List.filterMap_congr hat
  refine ⟨moduleAt i, positions.map moduleAt, by simpa using hmap, fun n hn => ?_, ?_, ?_⟩
  · rw [← List.map_cons] at hn
    obtain ⟨j, hj, rfl⟩ := List.mem_map.mp hn
    exact List.mem_of_getElem? (hat j (List.mem_append_left _ hj))
  · rw [← List.map_cons, List.map_map]
    refine hnodup.map_on fun j hj k hk hkey => ?_
    exact position_inj hkeys (hat j (List.mem_append_left _ hj))
      (hat k (List.mem_append_left _ hk)) hkey
  · have hdepends : ((i :: positions ++ [i]).map moduleAt).IsChain (DependsOn modules) := by
      refine (List.isChain_map moduleAt).mpr (hchain.imp_of_mem_imp fun j k hj hk hedge => ?_)
      obtain ⟨m, n, hm, hn, hmn⟩ := (edge_successors_iff hkeys).mp hedge
      rw [hat j hj] at hm
      rw [hat k hk] at hn
      rwa [Option.some.inj hm, Option.some.inj hn]
    simpa using hdepends

end Reconcile.ModuleNode
