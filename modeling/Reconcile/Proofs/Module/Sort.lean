import Reconcile.Proofs.Module.Dependency

/-!
# Sorted modules

The modules of a list, whose keys are distinct, can be sorted exactly if no module depends on
itself, directly or through others. What was sorted is in an order in which it can be installed
(`ModuleNode.sort_topological`), and what cannot be sorted is answered with a cycle
(`ModuleNode.sort_cyclic`). Modules that are left out make no difference to either: they are sorted
with the others and then taken out.
-/

namespace Reconcile.ModuleNode

open Relation

variable {α : Type} [ModuleNode α] {modules sorted : List α} {leftOut : List String} {m : α}

/-- A module is kept if neither its key nor its name is left out. -/
theorem isIn_eq_false_iff : isIn m leftOut = false ↔ key m ∉ leftOut ∧ name m ∉ leftOut := by
  rw [Bool.eq_false_iff, ← not_or, Ne, not_iff_not, isIn, List.any_eq_true]
  constructor
  · rintro ⟨text, hmem, htext⟩
    rcases (Bool.or_eq_true _ _).mp htext with htext | htext
    · exact Or.inl (eq_of_beq htext ▸ hmem)
    · exact Or.inr (eq_of_beq htext ▸ hmem)
  · rintro (hmem | hmem)
    · exact ⟨_, hmem, by simp⟩
    · exact ⟨_, hmem, by simp⟩

/-- The successors of a position are positions. -/
theorem mem_range_of_mem_successors (hkeys : (modules.map key).Nodup) :
    ∀ i ∈ List.range modules.length, ∀ j ∈ successors modules i,
      j ∈ List.range modules.length := by
  intro i _ j hj
  obtain ⟨-, n, -, hn, -⟩ := (edge_successors_iff hkeys).mp hj
  obtain ⟨hlt, -⟩ := List.getElem?_eq_some_iff.mp hn
  exact List.mem_range.mpr hlt

/-! ### Modules that can be sorted -/

/-- Modules cannot be sorted exactly if one of them depends on itself. -/
theorem sort_error_iff (hkeys : (modules.map key).Nodup) (leftOut : List String) :
    (∃ e, sort modules leftOut = .error e) ↔ ∃ m, TransGen (DependsOn modules) m m := by
  have hwalk : (∃ e, sort modules leftOut = .error e) ↔
      ∃ cycle, Graph.postOrder (successors modules) (List.range modules.length) =
        .error cycle := by
    unfold sort
    cases Graph.postOrder (successors modules) (List.range modules.length) <;> simp
  rw [hwalk, Graph.postOrder_error_iff (mem_range_of_mem_successors hkeys)]
  constructor
  · rintro ⟨i, -, hcycle⟩
    obtain ⟨m, n, hm, hn, hreach⟩ := (transGen_successors_iff hkeys).mp hcycle
    obtain rfl := Option.some.inj (hm.symm.trans hn)
    exact ⟨m, hreach⟩
  · rintro ⟨m, hcycle⟩
    obtain ⟨n, -, hdepends⟩ := TransGen.tail'_iff.mp hcycle
    obtain ⟨i, hi⟩ := List.mem_iff_getElem?.mp hdepends.mem
    obtain ⟨hlt, -⟩ := List.getElem?_eq_some_iff.mp hi
    exact ⟨i, List.mem_range.mpr hlt,
      (transGen_successors_iff hkeys).mpr ⟨m, m, hi, hi, hcycle⟩⟩

/-- Sorted modules are those at an ordered list of all positions, without those left out. -/
theorem exists_order (hkeys : (modules.map key).Nodup) (h : sort modules leftOut = .ok sorted) :
    ∃ order, Graph.postOrder (successors modules) (List.range modules.length) = .ok order ∧
      Graph.Ordered (successors modules) order ∧ order.Perm (List.range modules.length) ∧
      sorted = (atPositions modules order).filter fun m => ! isIn m leftOut := by
  unfold sort at h
  cases horder : Graph.postOrder (successors modules) (List.range modules.length) with
  | error cycle =>
    rw [horder] at h
    cases h
  | ok order =>
    rw [horder] at h
    cases h
    obtain ⟨hordered, hmem⟩ := Graph.postOrder_ok (mem_range_of_mem_successors hkeys) horder
    exact ⟨order, rfl, hordered,
      (List.perm_ext_iff_of_nodup hordered.nodup List.nodup_range).mpr hmem, rfl⟩

/-- No sorted module depends on itself or on a later one. -/
theorem pairwise_of_sort (hkeys : (modules.map key).Nodup) (h : sort modules leftOut = .ok sorted) :
    (∀ m, ¬ TransGen (DependsOn modules) m m) ∧
      sorted.Pairwise fun m n => ¬ TransGen (DependsOn modules) m n := by
  refine ⟨fun m hcycle => ?_, ?_⟩
  · obtain ⟨e, herror⟩ := (sort_error_iff hkeys leftOut).mpr ⟨m, hcycle⟩
    rw [h] at herror
    cases herror
  · obtain ⟨order, -, hordered, -, rfl⟩ := exists_order hkeys h
    refine List.Pairwise.filter _ (hordered.pairwise.filterMap _ fun i j hij m hi n hj hreach => ?_)
    exact hij ((transGen_successors_iff hkeys).mpr ⟨m, n, hi, hj, hreach⟩)

/-- **Order of installation**: whatever is left out, the sorted modules are all others, each once.
A module comes after all modules that it depends on, directly or through any modules of the list.
Leaving modules out does not change the order of the others. -/
theorem sort_topological (hkeys : (modules.map key).Nodup) (h : sort modules leftOut = .ok sorted) :
    ((sorted.map key).Nodup ∧
      ∀ m, m ∈ sorted ↔ m ∈ modules ∧ key m ∉ leftOut ∧ name m ∉ leftOut) ∧
    (∀ (i j : Nat) (m n : α), sorted[i]? = some m → sorted[j]? = some n →
      TransGen (DependsOn modules) m n → j < i) ∧
    ∃ all, sort modules [] = .ok all ∧
      sorted = all.filter fun m => decide (key m ∉ leftOut ∧ name m ∉ leftOut) := by
  obtain ⟨order, horder, hordered, hperm, rfl⟩ := exists_order hkeys h
  obtain ⟨hacyclic, hpairwise⟩ := pairwise_of_sort hkeys h
  have hall : (atPositions modules order).Perm modules := by
    have hpositions := hperm.filterMap fun i => modules[i]?
    rwa [← atPositions, ← atPositions, atPositions_range] at hpositions
  have hkept : ((atPositions modules order).filter fun m => ! isIn m leftOut) =
      (atPositions modules order).filter
        fun m => decide (key m ∉ leftOut ∧ name m ∉ leftOut) := by
    refine List.filter_congr fun m _ => ?_
    rw [Bool.eq_iff_iff, decide_eq_true_iff, ← isIn_eq_false_iff, Bool.not_eq_true']
  refine ⟨⟨?_, fun m => ?_⟩, fun i j m n hi hj hreach => ?_, atPositions modules order, ?_, hkept⟩
  · exact ((hall.map key).nodup_iff.mpr hkeys).sublist (List.filter_sublist.map key)
  · rw [hkept, List.mem_filter, hall.mem_iff, decide_eq_true_iff]
  · obtain ⟨hlt, rfl⟩ := List.getElem?_eq_some_iff.mp hi
    obtain ⟨hlt', rfl⟩ := List.getElem?_eq_some_iff.mp hj
    rcases Nat.lt_trichotomy i j with hij | rfl | hji
    · exact absurd hreach (List.pairwise_iff_getElem.mp hpairwise i j hlt hlt' hij)
    · exact absurd hreach (hacyclic _)
    · exact hji
  · have hnone : (atPositions modules order).filter (fun m => ! isIn m []) =
        atPositions modules order := List.filter_eq_self.mpr fun m _ => rfl
    rw [sort, horder]
    exact congrArg Except.ok hnone

/-- A module of which only the name and the dependencies matter. -/
structure Outline where
  name : String
  dependencies : List String
deriving DecidableEq

instance : ModuleNode Outline where
  name := Outline.name
  version _ := "1"
  dependencies := Outline.dependencies

/-- Four modules, with two ways from the first one to the last one. -/
def diamond : List Outline :=
  [⟨"d", ["b", "c"]⟩, ⟨"b", ["a"]⟩, ⟨"c", ["a@1", "a@2"]⟩, ⟨"a", []⟩]

/-- The way from `d` to `a` leads through modules that are left out. -/
theorem sort_topological_diamond :
    (diamond.map key).Nodup ∧
    sort diamond ["b", "c@1"] = .ok [⟨"a", []⟩, ⟨"d", ["b", "c"]⟩] ∧
    ∀ (i j : Nat) (m n : Outline), [⟨"a", []⟩, ⟨"d", ["b", "c"]⟩][i]? = some m →
      [⟨"a", []⟩, ⟨"d", ["b", "c"]⟩][j]? = some n → TransGen (DependsOn diamond) m n → j < i := by
  have hkeys : (diamond.map key).Nodup := by decide +kernel
  have hsort : sort diamond ["b", "c@1"] = .ok [⟨"a", []⟩, ⟨"d", ["b", "c"]⟩] := by decide +kernel
  exact ⟨hkeys, hsort, (sort_topological hkeys hsort).2.1⟩

/-! ### Cycles -/

/-- The cycle with which modules are answered that cannot be sorted. -/
theorem exists_cycle_of_sort (hkeys : (modules.map key).Nodup) {e : ModuleError}
    (h : sort modules leftOut = .error e) :
    ∃ m path, (∀ n ∈ m :: path, n ∈ modules) ∧ ((m :: path).map key).Nodup ∧
      (m :: path ++ [m]).IsChain (DependsOn modules) ∧
      e = .circularDependency ((m :: path ++ [m]).map key) := by
  unfold sort at h
  cases horder : Graph.postOrder (successors modules) (List.range modules.length) with
  | ok order =>
    rw [horder] at h
    cases h
  | error cycle =>
    rw [horder] at h
    cases h
    obtain ⟨hcycle, hmem⟩ := Graph.postOrder_error (mem_range_of_mem_successors hkeys) horder
    obtain ⟨m, path, hat, hpath, hnodup, hchain⟩ :=
      exists_cycle hkeys hcycle fun i hi => List.mem_range.mp (hmem i hi)
    exact ⟨m, path, hpath, hnodup, hchain, by rw [hat]⟩

/-- **Cycles**: modules cannot be sorted exactly if one of them depends on itself, directly or
through others, whatever is left out. The answer is then a cycle: modules of the list, each of which
depends on the next one, and the last of which is the first one again, with no other key
repeated. -/
theorem sort_cyclic (hkeys : (modules.map key).Nodup) (leftOut : List String) :
    ((∃ e, sort modules leftOut = .error e) ↔ ∃ m, TransGen (DependsOn modules) m m) ∧
    ∀ e, sort modules leftOut = .error e →
      ∃ m path, (∀ n ∈ m :: path, n ∈ modules) ∧ ((m :: path).map key).Nodup ∧
        (m :: path ++ [m]).IsChain (DependsOn modules) ∧
        e = .circularDependency ((m :: path ++ [m]).map key) ∧
        e.message = "Circular module dependency: " ++
          String.intercalate " -> " ((m :: path ++ [m]).map key) := by
  refine ⟨sort_error_iff hkeys leftOut, fun e h => ?_⟩
  obtain ⟨m, path, hpath, hnodup, hchain, rfl⟩ := exists_cycle_of_sort hkeys h
  exact ⟨m, path, hpath, hnodup, hchain, rfl, rfl⟩

/-- Two modules that depend on each other, met on the way from a third one. -/
def circle : List Outline :=
  [⟨"a", ["b"]⟩, ⟨"b", ["c@1"]⟩, ⟨"c", ["b"]⟩]

theorem sort_cyclic_circle :
    (circle.map key).Nodup ∧
    sort circle ["b", "c"] = .error (.circularDependency ["b@1", "c@1", "b@1"]) ∧
    ∃ m, TransGen (DependsOn circle) m m := by
  have hkeys : (circle.map key).Nodup := by decide +kernel
  have hsort : sort circle ["b", "c"] = .error (.circularDependency ["b@1", "c@1", "b@1"]) := by
    decide +kernel
  exact ⟨hkeys, hsort, (sort_cyclic hkeys ["b", "c"]).1.mp ⟨_, hsort⟩⟩

end Reconcile.ModuleNode
