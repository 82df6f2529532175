import Reconcile.Proofs.Module.Order
import Reconcile.Proofs.Module.Sort

/-!
# Sorting what is in order

Modules none of which depends on itself or on a later one stay where they are when they are sorted,
and those that are left out are missing. What was sorted is in such an order, and yet it need not
stay as it is when it is sorted once more. A dependency may change its meaning on the way: a name
means the first module of this name, and a key means the last one, wherever they are now.

* A name never does any harm. The module that it meant stands before, and so the first one of its
  name does.
* A key does, if it is given several times. The module that it meant stands before, but another one
  of this key may stand behind, and now it is meant.

So the order is kept exactly if all modules whose keys are among the dependencies of a module stand
before it (`ModuleNode.sort_stable`). When the keys are distinct, they do.
-/

namespace Reconcile.ModuleNode

variable {α : Type} [ModuleNode α] {modules sorted : List α} {m n : α} {d : String} {i q : Nat}

/-! ### Places of sorted modules -/

/-- What stands at a place of the sorted list. -/
theorem getElem?_atPositions {β : Type} {modules : List β} {order : List Nat}
    (h : ∀ p ∈ order, p < modules.length) (i : Nat) :
    (atPositions modules order)[i]? = order[i]?.bind fun p => modules[p]? := by
  induction order generalizing i with
  | nil => rfl
  | cons p order ih =>
    obtain ⟨hp, horder⟩ := List.forall_mem_cons.mp h
    have hat : modules[p]? = some modules[p] := List.getElem?_eq_getElem hp
    rw [atPositions, List.filterMap_cons_some hat]
    cases i with
    | zero => exact hat.symm
    | succ i => exact ih horder i

/-- The module that a dependency meant stands before, once the modules are sorted. -/
theorem exists_lt_of_sort (h : sort modules [] = .ok sorted) (hi : sorted[i]? = some m)
    (hd : d ∈ dependencies m) (hq : position? modules d = some q) (hn : modules[q]? = some n) :
    ∃ j < i, sorted[j]? = some n := by
  obtain ⟨order, -, hordered, hperm, rfl⟩ := exists_order_of_sort h
  have hat := getElem?_atPositions fun p hp => List.mem_range.mp (hperm.mem_iff.mp hp)
  rw [hat] at hi
  obtain ⟨p, hp, hm⟩ := Option.bind_eq_some_iff.mp hi
  obtain ⟨j, hji, hj⟩ :=
    hordered.exists_lt_of_edge hp (edge_successors_iff_position?.mpr ⟨m, hm, d, hd, hq⟩)
  exact ⟨j, hji, by rw [hat, hj]; exact hn⟩

/-! ### Sorting once more -/

/-- Modules are sorted already exactly if the walk only goes back. By induction on the position:
what stands at it is listed next, and so its successors are listed. -/
theorem sort_eq_self_iff :
    sort modules [] = .ok modules ↔ ∀ i j, Graph.Edge (successors modules) i j → j < i := by
  refine ⟨fun h i => ?_, fun hlt => (sort_of_lt hlt []).trans (congrArg Except.ok ?_)⟩
  · induction i using Nat.strong_induction_on with
    | _ i ih =>
      intro j hedge
      obtain ⟨m, hm, d, hd, hposition⟩ := edge_successors_iff_position?.mp hedge
      obtain ⟨order, horder, hordered, hperm, hself⟩ := exists_order_of_sort h
      obtain ⟨after, hafter⟩ := exists_range_eq_append (List.getElem?_eq_some_iff.mp hm).1
      rw [hafter] at horder
      obtain ⟨rest, rfl⟩ := Graph.exists_append_postOrder (Graph.ordered_range ih) horder
      -- the module at the position is also at the one that is listed next
      have hm' : (atPositions modules (List.range i ++ rest))[i]? = some m := hself ▸ hm
      rw [getElem?_atPositions fun p hp => List.mem_range.mp (hperm.mem_iff.mp hp)] at hm'
      obtain ⟨p, hp, hmp⟩ := Option.bind_eq_some_iff.mp hm'
      have hback : Graph.Edge (successors modules) p j :=
        edge_successors_iff_position?.mpr ⟨m, hmp, d, hd, hposition⟩
      obtain ⟨k, hki, hk⟩ := hordered.exists_lt_of_edge hp hback
      rw [List.getElem?_append_left (by simpa using hki), List.getElem?_range hki] at hk
      exact Option.some.inj hk ▸ hki
  · exact List.filter_eq_self.mpr fun _ _ => rfl

/-- When sorted modules are sorted once more, the walk only goes back exactly if each module stands
behind those whose keys are among its dependencies. -/
theorem lt_of_edge_iff (h : sort modules [] = .ok sorted) :
    (∀ i j, Graph.Edge (successors sorted) i j → j < i) ↔
      ∀ (i j : Nat) (m n : α), sorted[i]? = some m → sorted[j]? = some n →
        key n ∈ dependencies m → j < i := by
  constructor
  · intro hlt i j m n hi hj hd
    obtain ⟨k, hk⟩ := exists_positionOfKey? (List.mem_of_getElem? hj)
    have hedge : Graph.Edge (successors sorted) i k :=
      edge_successors_iff_position?.mpr ⟨m, hi, key n, hd, by simp [position?, hk]⟩
    exact Nat.lt_of_le_of_lt (le_of_positionOfKey? hk hj rfl) (hlt i k hedge)
  · intro hkeys i j hedge
    obtain ⟨m, hi, d, hd, hposition⟩ := edge_successors_iff_position?.mp hedge
    cases hbare : isBareName d with
    | false =>
      rw [position?_of_versioned hbare] at hposition
      obtain ⟨n, hj, rfl⟩ := exists_of_positionOfKey? hposition
      exact hkeys i j m n hi hj hd
    | true =>
      -- the first module of the name is not behind the one that the name meant
      rw [position?_of_bare hbare] at hposition
      obtain ⟨hlt, hname, hfirst⟩ := List.findIdx?_eq_some_iff_getElem.mp hposition
      have hany : (modules.findIdx? fun m => name m == d).isSome := by
        rw [List.findIdx?_isSome, List.any_eq_true]
        exact ⟨sorted[j], (perm_of_sort h).mem_iff.mp (List.getElem_mem hlt), hname⟩
      obtain ⟨q, hq⟩ := Option.isSome_iff_exists.mp hany
      obtain ⟨hqlt, hqname, -⟩ := List.findIdx?_eq_some_iff_getElem.mp hq
      obtain ⟨k, hki, hk⟩ := exists_lt_of_sort h hi hd ((position?_of_bare hbare).trans hq)
        (List.getElem?_eq_getElem hqlt)
      refine Nat.lt_of_le_of_lt (Nat.le_of_not_lt fun hkj => ?_) hki
      obtain ⟨hklt, hkeq⟩ := List.getElem?_eq_some_iff.mp hk
      exact hfirst k hkj (by rw [hkeq]; exact hqname)

/-- Modules with distinct keys that were sorted stand behind those whose keys are among their
dependencies. -/
theorem lt_of_key_mem (hkeys : (modules.map key).Nodup) (h : sort modules [] = .ok sorted)
    {j : Nat} (hi : sorted[i]? = some m) (hj : sorted[j]? = some n) (hd : key n ∈ dependencies m) :
    j < i := by
  have hperm := perm_of_sort h
  obtain ⟨q, hq⟩ := exists_positionOfKey? (hperm.mem_iff.mp (List.mem_of_getElem? hj))
  obtain ⟨n', hn', hkey⟩ := exists_of_positionOfKey? hq
  obtain ⟨k, hki, hk⟩ := exists_lt_of_sort h hi hd (by simp [position?, hq]) hn'
  rwa [position_inj ((hperm.map key).nodup_iff.mpr hkeys) hj hk hkey.symm]

/-- **Stability**. Modules of which each depends on earlier ones only are sorted as they stand,
without those that are left out. Modules that were sorted are sorted to the same list once more
exactly if each of them stands behind all modules whose keys are among its dependencies. That is so
if the keys are distinct, and otherwise it may fail. -/
theorem sort_stable (modules : List α) :
    ((∀ (i j : Nat) (m n : α), modules[i]? = some m → modules[j]? = some n →
        DependsOn modules m n → j < i) →
      ∀ leftOut, sort modules leftOut =
        .ok (modules.filter fun m => decide (key m ∉ leftOut ∧ name m ∉ leftOut))) ∧
    ∀ sorted, sort modules [] = .ok sorted →
      ((modules.map key).Nodup → sort sorted [] = .ok sorted) ∧
      (sort sorted [] = .ok sorted ↔
        ∀ (i j : Nat) (m n : α), sorted[i]? = some m → sorted[j]? = some n →
          key n ∈ dependencies m → j < i) := by
  refine ⟨fun hearlier leftOut => ?_, fun sorted h => ⟨fun hkeys => ?_, ?_⟩⟩
  · have hlt : ∀ i j, Graph.Edge (successors modules) i j → j < i := fun i j hedge => by
      obtain ⟨m, n, hi, hj, hdepends⟩ := dependsOn_of_edge hedge
      exact hearlier i j m n hi hj hdepends
    rw [sort_of_lt hlt]
    refine congrArg Except.ok (List.filter_congr fun m _ => ?_)
    rw [Bool.eq_iff_iff, decide_eq_true_iff, ← isIn_eq_false_iff, Bool.not_eq_true']
  · exact sort_eq_self_iff.mpr
      ((lt_of_edge_iff h).mpr fun i j m n hi hj hd => lt_of_key_mem hkeys h hi hj hd)
  · exact sort_eq_self_iff.trans (lt_of_edge_iff h)

/-- A list in which `a` is given twice, and in between a module that depends on it. -/
def doubled : List Outline := [⟨"a", []⟩, ⟨"x", ["a@1"]⟩, ⟨"a", []⟩]

/-- Modules that depend on each other by names and by keys keep their order. -/
theorem sort_stable_names :
    let modules : List Outline := [⟨"b", ["a"]⟩, ⟨"a", []⟩, ⟨"c", ["b@1", "a", "z"]⟩]
    let sorted : List Outline := [⟨"a", []⟩, ⟨"b", ["a"]⟩, ⟨"c", ["b@1", "a", "z"]⟩]
    (modules.map key).Nodup ∧ sort modules [] = .ok sorted ∧ sort sorted [] = .ok sorted ∧
      sort sorted ["b", "a@2"] = .ok [⟨"a", []⟩, ⟨"c", ["b@1", "a", "z"]⟩] := by
  intro modules sorted
  have hkeys : (modules.map key).Nodup := by decide +kernel
  have hkeys' : (sorted.map key).Nodup := by decide +kernel
  have hsort : sort modules [] = .ok sorted := by decide +kernel
  have hback : ∀ i < sorted.length, ∀ j ∈ successors sorted i, j < i := by decide +kernel
  refine ⟨hkeys, hsort, ((sort_stable modules).2 sorted hsort).1 hkeys, ?_⟩
  refine ((sort_stable sorted).1 (fun i j m n hi hj hdepends => ?_) _).trans (by decide +kernel)
  have hedge := (edge_successors_iff hkeys').mpr ⟨m, n, hi, hj, hdepends⟩
  exact hback i (List.getElem?_eq_some_iff.mp hi).1 j hedge

/-- **A module that is given twice.** What was sorted is sorted to another list once more: at first
the key of `a` means the one in front, and then it means the one at the end. -/
theorem sort_unstable :
    sort [⟨"x", ["a@1"]⟩, ⟨"a", []⟩, ⟨"a", []⟩] [] = .ok doubled ∧
      sort doubled [] = .ok [⟨"a", []⟩, ⟨"a", []⟩, ⟨"x", ["a@1"]⟩] ∧
      sort doubled [] ≠ .ok doubled := by
  decide +kernel

end Reconcile.ModuleNode
