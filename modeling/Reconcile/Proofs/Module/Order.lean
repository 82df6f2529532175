import Reconcile.Proofs.Graph.Listing
import Reconcile.Proofs.Module.Dependency

/-!
# The order of sorted modules

How the order in which modules are given carries over to the order in which they are sorted.

* Modules none of which depends on itself or on a later one are sorted already
  (`ModuleNode.sort_of_pairwise`).
* Modules that do not depend on each other in a circle can be sorted, however often each of them is
  given (`ModuleNode.exists_sort`).
* A list may give a module several times. A dependency then means the last time, and at every other
  time the module is placed without regard to those that depend on it. So a module can come after
  one that depends on it, namely if it is given again after one that does so
  (`ModuleNode.Pinned.pairwise_sort_iff`).
-/

namespace Reconcile.ModuleNode

open Relation

variable {α : Type} [ModuleNode α] {modules sorted : List α} {m n : α} {i j : Nat}

/-! ### Modules that are in order -/

/-- Modules stay as they are, up to those that are left out, if the walk only goes back. -/
theorem sort_of_lt (hlt : ∀ i j, Graph.Edge (successors modules) i j → j < i)
    (leftOut : List String) :
    sort modules leftOut = .ok (modules.filter fun m => ! isIn m leftOut) := by
  unfold sort
  rw [Graph.postOrder_of_ordered (Graph.ordered_range fun i _ => hlt i)]
  simp only [atPositions_range]

/-- **Stability**: modules in order stay as they are, up to those that are left out. -/
theorem sort_of_pairwise (hself : ∀ m ∈ modules, ¬ DependsOn modules m m)
    (hpairwise : modules.Pairwise fun m n => ¬ DependsOn modules m n) (leftOut : List String) :
    sort modules leftOut = .ok (modules.filter fun m => ! isIn m leftOut) := by
  refine sort_of_lt (fun i j hedge => ?_) leftOut
  obtain ⟨m, n, hi, hj, hdepends⟩ := dependsOn_of_edge hedge
  obtain ⟨hi', rfl⟩ := List.getElem?_eq_some_iff.mp hi
  obtain ⟨hj', rfl⟩ := List.getElem?_eq_some_iff.mp hj
  rcases Nat.lt_trichotomy i j with hij | rfl | hji
  · exact absurd hdepends (List.pairwise_iff_getElem.mp hpairwise i j hi' hj' hij)
  · exact absurd hdepends (hself _ (List.getElem_mem hi'))
  · exact hji

/-! ### Modules that can be sorted -/

theorem mem_range_of_edge (modules : List α) : ∀ i ∈ List.range modules.length,
    ∀ j ∈ successors modules i, j ∈ List.range modules.length :=
  fun _ _ _ hedge => List.mem_range.mpr (lt_length_of_edge hedge)

/-- Modules that were sorted are those at an ordered list of all positions. -/
theorem exists_order_of_sort (h : sort modules [] = .ok sorted) :
    ∃ order, Graph.postOrder (successors modules) (List.range modules.length) = .ok order ∧
      Graph.Ordered (successors modules) order ∧ order.Perm (List.range modules.length) ∧
      sorted = atPositions modules order := by
  unfold sort at h
  cases horder : Graph.postOrder (successors modules) (List.range modules.length) with
  | error cycle =>
    rw [horder] at h
    cases h
  | ok order =>
    rw [horder] at h
    obtain ⟨hordered, hmem⟩ := Graph.postOrder_ok (mem_range_of_edge modules) horder
    exact ⟨order, rfl, hordered,
      (List.perm_ext_iff_of_nodup hordered.nodup List.nodup_range).mpr hmem,
      (Except.ok.inj h).symm.trans (List.filter_eq_self.mpr fun _ _ => rfl)⟩

/-- Sorting neither drops modules nor repeats any. -/
theorem perm_of_sort (h : sort modules [] = .ok sorted) : sorted.Perm modules := by
  obtain ⟨order, -, -, hperm, rfl⟩ := exists_order_of_sort h
  exact perm_atPositions hperm

/-- Modules that do not depend on each other in a circle are those at an ordered list of all
positions. -/
theorem exists_order_of_acyclic (hacyclic : ∀ m, ¬ TransGen (DependsOn modules) m m) :
    ∃ order, Graph.postOrder (successors modules) (List.range modules.length) = .ok order ∧
      Graph.Ordered (successors modules) order ∧ order.Perm (List.range modules.length) ∧
      sort modules [] = .ok (atPositions modules order) := by
  cases hsort : sort modules [] with
  | ok sorted =>
    obtain ⟨order, horder, hordered, hperm, rfl⟩ := exists_order_of_sort hsort
    exact ⟨order, horder, hordered, hperm, rfl⟩
  | error e =>
    unfold sort at hsort
    cases horder : Graph.postOrder (successors modules) (List.range modules.length) with
    | ok order => simp [horder] at hsort
    | error cycle =>
      obtain ⟨i, -, hcycle⟩ :=
        (Graph.postOrder_error_iff (mem_range_of_edge modules)).mp ⟨cycle, horder⟩
      obtain ⟨m, n, hm, hn, hreach⟩ := transGen_of_successors hcycle
      obtain rfl := Option.some.inj (hm.symm.trans hn)
      exact absurd hreach (hacyclic m)

/-- **Sorting succeeds** for modules that do not depend on each other in a circle, and it keeps each
of them as often as it is given. -/
theorem exists_sort (hacyclic : ∀ m, ¬ TransGen (DependsOn modules) m m) :
    ∃ sorted, sort modules [] = .ok sorted ∧ sorted.Perm modules := by
  obtain ⟨order, -, -, hperm, hsort⟩ := exists_order_of_acyclic hacyclic
  exact ⟨_, hsort, perm_atPositions hperm⟩

/-! ### Modules that are given several times -/

/-- The positions up to a place, the place and those behind it. -/
theorem exists_range_eq_append {n : Nat} (h : i < n) :
    ∃ rest, List.range n = List.range i ++ i :: rest := by
  refine ⟨(List.range (n - i - 1)).map fun k => i + (k + 1), ?_⟩
  have hlength : n = i + (n - i - 1 + 1) := by omega
  conv_lhs => rw [hlength, List.range_add, List.range_succ_eq_map]
  simp [Function.comp_def]

/-- Dependencies are keys, and a key tells the module. Modules may be given several times. -/
structure Pinned (modules : List α) : Prop where
  versioned : ∀ m ∈ modules, ∀ d ∈ dependencies m, isBareName d = false
  key_inj : ∀ m ∈ modules, ∀ n ∈ modules, key m = key n → m = n

/-- A key is found at the last position of a module of this key. -/
theorem le_of_positionOfKey? {k : String} (h : positionOfKey? modules k = some i)
    (hj : modules[j]? = some n) (hkey : key n = k) : j ≤ i := by
  obtain ⟨-, later, earlier, hsplit, hlater⟩ := List.find?_eq_some_iff_append.mp h
  obtain ⟨hlt, -⟩ := List.getElem?_eq_some_iff.mp hj
  have hmem : j ∈ later ++ i :: earlier := by
    rw [← hsplit, List.mem_reverse]
    exact List.mem_range.mpr hlt
  have hsorted : (later ++ i :: earlier).Pairwise fun k l => l < k := by
    rw [← hsplit, List.pairwise_reverse]
    exact List.pairwise_lt_range
  rcases List.mem_append.mp hmem with hmem | hmem
  · -- at later positions the key is not found
    have hmissing := hlater j hmem
    simp [hj, hkey] at hmissing
  · rcases List.mem_cons.mp hmem with rfl | hmem
    · exact Nat.le_refl j
    · have hrest := (List.pairwise_append.mp hsorted).2.1
      exact Nat.le_of_lt ((List.pairwise_cons.mp hrest).1 j hmem)

namespace Pinned

theorem dependsOn_iff (h : Pinned modules) (hm : m ∈ modules) :
    DependsOn modules m n ↔ n ∈ modules ∧ key n ∈ dependencies m := by
  constructor
  · rintro ⟨d, hd, ⟨hn, rfl⟩ | ⟨hbare, -⟩⟩
    · exact ⟨hn, hd⟩
    · exact absurd (isBareName_iff.mpr hbare) (by simp [h.versioned m hm d hd])
  · rintro ⟨hn, hkey⟩
    exact ⟨key n, hkey, Or.inl ⟨hn, rfl⟩⟩

/-- The walk goes to the last position of a module. -/
theorem le_of_edge (h : Pinned modules) (hedge : Graph.Edge (successors modules) i j)
    (hj : modules[j]? = some n) {k : Nat} (hk : modules[k]? = some n) : k ≤ j := by
  obtain ⟨m, hi, d, hd, hposition⟩ := edge_successors_iff_position?.mp hedge
  rw [position?_of_versioned (h.versioned m (List.mem_of_getElem? hi) d hd)] at hposition
  obtain ⟨n', hj', hkey⟩ := exists_of_positionOfKey? hposition
  obtain rfl := Option.some.inj (hj.symm.trans hj')
  exact le_of_positionOfKey? hposition hk hkey

/-- The walk goes from every position of a module to one of each module that it depends on. -/
theorem exists_edge (h : Pinned modules) (hi : modules[i]? = some m)
    (hdepends : DependsOn modules m n) :
    ∃ j, modules[j]? = some n ∧ Graph.Edge (successors modules) i j := by
  obtain ⟨hn, hkey⟩ := (h.dependsOn_iff (List.mem_of_getElem? hi)).mp hdepends
  obtain ⟨j, hj⟩ := exists_positionOfKey? hn
  obtain ⟨n', hn', hkey'⟩ := exists_of_positionOfKey? hj
  obtain rfl := h.key_inj n' (List.mem_of_getElem? hn') n hn hkey'
  exact ⟨j, hn', edge_successors_iff_position?.mpr
    ⟨m, hi, key n', hkey, by simp [position?, hj]⟩⟩

theorem exists_reach (h : Pinned modules) (hi : modules[i]? = some m)
    (hreach : ReflTransGen (DependsOn modules) m n) :
    ∃ j, modules[j]? = some n ∧ ReflTransGen (Graph.Edge (successors modules)) i j := by
  induction hreach with
  | refl => exact ⟨i, hi, .refl⟩
  | tail _ hdepends ih =>
    obtain ⟨k, hk, hreach⟩ := ih
    obtain ⟨j, hj, hedge⟩ := h.exists_edge hk hdepends
    exact ⟨j, hj, hreach.tail hedge⟩

/-- The place of a module that is given again later: after what is reached from the modules before
it, and after what it reaches itself. -/
theorem exists_split (h : Pinned modules) (hi : modules[i]? = some m) (hj : modules[j]? = some m)
    (hij : i < j) {order : List Nat}
    (horder : Graph.postOrder (successors modules) (List.range modules.length) = .ok order) :
    ∃ first own last, order = first ++ own ++ i :: last ∧
      (∀ l, l ∈ first ↔ ∃ k < i, ReflTransGen (Graph.Edge (successors modules)) k l) ∧
      ∀ l ∈ own, ReflTransGen (Graph.Edge (successors modules)) i l := by
  obtain ⟨rest, hrest⟩ := exists_range_eq_append (List.getElem?_eq_some_iff.mp hi).1
  have hapart : ∀ k ∈ List.range i, ¬ ReflTransGen (Graph.Edge (successors modules)) k i := by
    intro k hk hreach
    rcases ReflTransGen.cases_tail hreach with rfl | ⟨l, -, hedge⟩
    · exact List.not_mem_range_self hk
    · exact absurd (h.le_of_edge hedge hi hj) (Nat.not_le.mpr hij)
  have hnext := mem_range_of_edge modules
  rw [hrest] at horder hnext
  simpa only [List.mem_range] using Graph.exists_split_postOrder hnext horder hapart

/-- **The order of modules that may be given several times**: no sorted module stands before one
that it depends on, exactly if no module is given again after one that depends on it, directly or
through others of the list. -/
theorem pairwise_sort_iff (h : Pinned modules) (hacyclic : ∀ m, ¬ TransGen (DependsOn modules) m m)
    (hsort : sort modules [] = .ok sorted) :
    (sorted.Pairwise fun m n => ¬ DependsOn modules m n) ↔
      ∀ (i j k : Nat) (n m : α), i < j → j < k → modules[i]? = some n → modules[j]? = some m →
        modules[k]? = some m → ¬ TransGen (DependsOn modules) n m := by
  obtain ⟨order, horder, hordered, -, hsort'⟩ := exists_order_of_acyclic hacyclic
  obtain rfl := Except.ok.inj (hsort.symm.trans hsort')
  unfold atPositions
  rw [List.pairwise_filterMap]
  constructor
  · intro hpairwise i j k n m hij hjk hi hj hk hreach
    obtain ⟨first, own, last, rfl, hfirst, -⟩ := h.exists_split hj hk hjk horder
    obtain ⟨l, hl, hdepends⟩ := TransGen.tail'_iff.mp hreach
    obtain ⟨p, hp, hreach⟩ := h.exists_reach hi hl
    have hmem : p ∈ first ++ own := List.mem_append_left _ ((hfirst p).mpr ⟨i, hij, hreach⟩)
    exact (List.pairwise_append.mp hpairwise).2.2 p hmem j List.mem_cons_self l hp m hj hdepends
  · intro hcondition
    refine List.pairwise_iff_forall_sublist.mpr fun {p j} hsub l hp m hj hdepends => ?_
    obtain ⟨k, hk, hedge⟩ := h.exists_edge hp hdepends
    rcases Nat.lt_or_eq_of_le (h.le_of_edge hedge hk hj) with hjk | rfl
    · obtain ⟨first, own, last, rfl, hfirst, hown⟩ := h.exists_split hj hk hjk horder
      rcases List.mem_append.mp (Graph.mem_of_pair_sublist hordered.nodup hsub) with hmem | hmem
      · -- a module before this place reaches the one that depends on it
        obtain ⟨i, hij, hreach⟩ := (hfirst p).mp hmem
        obtain ⟨n, m', hi, hk', hdepends⟩ := transGen_of_successors (.tail' hreach hedge)
        obtain rfl := Option.some.inj (hk.symm.trans hk')
        exact hcondition i j k n m hij hjk hi hj hk hdepends
      · -- the module itself reaches the one that depends on it
        obtain ⟨n, m', hj', hk', hcycle⟩ := transGen_of_successors (.tail' (hown p hmem) hedge)
        obtain rfl := Option.some.inj (hj.symm.trans hj')
        obtain rfl := Option.some.inj (hk.symm.trans hk')
        exact hacyclic m hcycle
    · exact List.pairwise_iff_forall_sublist.mp hordered.pairwise hsub (.single hedge)

end Pinned

end Reconcile.ModuleNode
