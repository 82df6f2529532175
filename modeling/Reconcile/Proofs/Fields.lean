import Mathlib.Tactic.SplitIfs
import Mathlib.Tactic.Tauto
import Reconcile.Fields

/-!
# Members of sorted fields

Which fields there are once some were set, provided that no name gets two values. Pairs with
distinct names only change their order (`Fields.perm_ofPairs`).
-/

namespace Reconcile.Fields

variable {α : Type}

/-- Setting a field to the value that it has wherever it occurs only adds the field. -/
theorem mem_put_iff {name : String} {value : α} {fields : Fields α}
    (h : ∀ old, (name, old) ∈ fields → old = value) {field : String × α} :
    field ∈ fields.put name value ↔ field = (name, value) ∨ field ∈ fields := by
  induction fields with
  | nil => simp [put]
  | cons first rest ih =>
    obtain ⟨other, old⟩ := first
    have hrest : ∀ old, (name, old) ∈ rest → old = value :=
      fun old hold => h old (List.mem_cons_of_mem _ hold)
    unfold put
    split_ifs with heq
    · subst heq
      obtain rfl : old = value := h old List.mem_cons_self
      simp
    · simp
    · rw [List.mem_cons, ih hrest, List.mem_cons]
      tauto

/-- Of pairs that give each name one value, none is lost. -/
theorem mem_ofPairs_iff {value? : String → Option α} {pairs : List (String × α)}
    (h : ∀ name value, (name, value) ∈ pairs → value? name = some value) {field : String × α} :
    field ∈ ofPairs pairs ↔ field ∈ pairs := by
  suffices ∀ acc : Fields α, (∀ name value, (name, value) ∈ acc → value? name = some value) →
      (field ∈ pairs.foldl (fun fields pair => fields.put pair.1 pair.2) acc ↔
        field ∈ acc ∨ field ∈ pairs) by
    simpa [ofPairs] using this [] (by simp)
  intro acc hacc
  induction pairs generalizing acc with
  | nil => simp
  | cons pair rest ih =>
    obtain ⟨name, value⟩ := pair
    have hvalue : value? name = some value := h name value List.mem_cons_self
    have hput : ∀ {field : String × α},
        field ∈ Fields.put name value acc ↔ field = (name, value) ∨ field ∈ acc :=
      mem_put_iff fun old hold => Option.some.inj ((hacc name old hold).symm.trans hvalue)
    rw [List.foldl_cons, ih (fun n v hn => h n v (List.mem_cons_of_mem _ hn)), hput, List.mem_cons]
    · tauto
    · intro n v hn
      rcases hput.mp hn with heq | hn
      · cases heq
        exact hvalue
      · exact hacc n v hn

theorem find?_eq_none {name : String} {pairs : List (String × α)}
    (h : name ∉ pairs.map Prod.fst) : find? name pairs = none := by
  induction pairs with
  | nil => rfl
  | cons pair rest ih =>
    obtain ⟨hne, hrest⟩ := not_or.mp (mt List.mem_cons.mpr h)
    exact (if_neg hne).trans (ih hrest)

theorem mem_of_find? {name : String} {value : α} {pairs : List (String × α)}
    (h : find? name pairs = some value) : (name, value) ∈ pairs := by
  induction pairs with
  | nil => cases h
  | cons pair rest ih =>
    unfold find? at h
    split_ifs at h with heq
    · cases h
      exact heq ▸ List.mem_cons_self
    · exact List.mem_cons_of_mem _ (ih h)

/-- Of pairs with distinct names, each has its value. -/
theorem find?_of_mem {name : String} {value : α} {pairs : List (String × α)}
    (h : (pairs.map Prod.fst).Nodup) (hmem : (name, value) ∈ pairs) :
    find? name pairs = some value := by
  induction pairs with
  | nil => exact absurd hmem List.not_mem_nil
  | cons pair rest ih =>
    obtain ⟨other, old⟩ := pair
    obtain ⟨hfirst, hrest⟩ := List.nodup_cons.mp h
    unfold find?
    rcases List.mem_cons.mp hmem with heq | hmem
    · cases heq
      exact if_pos rfl
    · have hne : name ≠ other := fun heq => hfirst (List.mem_map.mpr ⟨_, hmem, heq⟩)
      rw [if_neg hne]
      exact ih hrest hmem

/-- Setting a field that is not there adds it. -/
theorem perm_put {name : String} (value : α) {fields : Fields α} (h : name ∉ fields.names) :
    (fields.put name value).Perm ((name, value) :: fields) := by
  induction fields with
  | nil => exact .refl _
  | cons field rest ih =>
    obtain ⟨hne, hrest⟩ := not_or.mp (mt List.mem_cons.mpr h)
    unfold put
    rw [if_neg hne]
    split_ifs
    · exact .refl _
    · exact ((ih hrest).cons field).trans (.swap _ _ rest)

/-- The fields made of pairs with distinct names are the pairs in another order. -/
theorem perm_ofPairs {pairs : List (String × α)} (h : (pairs.map Prod.fst).Nodup) :
    (ofPairs pairs).Perm pairs := by
  suffices ∀ acc : Fields α, ((pairs ++ acc).map Prod.fst).Nodup →
      (pairs.foldl (fun fields pair => fields.put pair.1 pair.2) acc).Perm (pairs ++ acc) by
    simpa [ofPairs] using this [] (by simpa using h)
  clear h
  intro acc h
  induction pairs generalizing acc with
  | nil => exact .refl _
  | cons pair rest ih =>
    have hperm : (pair :: (rest ++ acc)).Perm (rest ++ pair :: acc) := List.perm_middle.symm
    have hnew : pair.1 ∉ Fields.names acc := fun hmem =>
      (List.nodup_cons.mp h).1 (List.map_append ▸ List.mem_append_right _ hmem)
    have hput := (perm_put pair.2 hnew).append_left rest
    rw [List.foldl_cons]
    refine (ih _ ?_).trans (hput.trans hperm.symm)
    exact ((hput.trans hperm.symm).map Prod.fst).nodup_iff.mpr h

/-- Of pairs with distinct names, none is lost. -/
theorem mem_ofPairs_iff_of_nodup {pairs : List (String × α)} (h : (pairs.map Prod.fst).Nodup)
    {field : String × α} : field ∈ ofPairs pairs ↔ field ∈ pairs :=
  (perm_ofPairs h).mem_iff

/-- The fields made of pairs with distinct names are those of the pairs. -/
theorem find?_ofPairs {pairs : List (String × α)} (h : (pairs.map Prod.fst).Nodup) (name : String) :
    (ofPairs pairs).find? name = find? name pairs := by
  suffices ∀ acc : Fields α,
      (pairs.foldl (fun fields pair => fields.put pair.1 pair.2) acc).find? name =
        (find? name pairs).or (acc.find? name) from (this []).trans (Option.or_none)
  intro acc
  induction pairs generalizing acc with
  | nil => rfl
  | cons pair rest ih =>
    obtain ⟨other, value⟩ := pair
    obtain ⟨hfirst, hrest⟩ := List.nodup_cons.mp h
    rw [List.foldl_cons, ih hrest, find?]
    split_ifs with heq
    · rw [heq, find?_eq_none hfirst, find?_put_self]
      rfl
    · rw [find?_put_of_ne heq]

end Reconcile.Fields
