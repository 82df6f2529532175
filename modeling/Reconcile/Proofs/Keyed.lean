import Mathlib.Tactic.SplitIfs
import Reconcile.Keyed

/-!
# Look-ups in keyed collections

The effect of writing and of removing keys on every look-up, and how look-ups and the pairs of a
collection tell the same.
-/

namespace Reconcile.Keyed

variable {κ α : Type} [DecidableEq κ]

/-- Look-up after a write, at any key. -/
theorem find?_put (m : Keyed κ α) (k x : κ) (a : α) :
    (m.put k a).find? x = if x = k then some a else m.find? x := by
  split_ifs with hx
  · rw [hx, find?_put_self]
  · exact find?_put_of_ne m hx a

/-- Look-up after a removal, at any key. -/
theorem find?_erase (m : Keyed κ α) (k x : κ) :
    (m.erase k).find? x = if x = k then none else m.find? x := by
  split_ifs with hx
  · rw [hx, find?_erase_self]
  · exact find?_erase_of_ne m hx

/-- A key has a value if the two are a pair of the collection. -/
theorem find?_eq_some_iff {m : Keyed κ α} {k : κ} {a : α} :
    m.find? k = some a ↔ (k, a) ∈ m.pairs := by
  obtain ⟨pairs, hdistinct⟩ := m
  change lookup k pairs = some a ↔ (k, a) ∈ pairs
  induction pairs with
  | nil => simp [lookup]
  | cons pair rest ih =>
    obtain ⟨k', b'⟩ := pair
    obtain ⟨hnot, hrest⟩ := List.nodup_cons.mp hdistinct
    unfold lookup
    split_ifs with hk
    · -- the first pair hides no other pair of its key, for there is none
      subst hk
      have hkey : (k, a) ∉ rest := fun hmem => hnot (List.mem_map.mpr ⟨_, hmem, rfl⟩)
      simp [hkey, eq_comm]
    · simp [ih hrest, hk]

/-- Look-up after one value was written under several keys. -/
theorem find?_foldl_put (keys : List κ) (m : Keyed κ α) (a : α) (x : κ) :
    (keys.foldl (fun m k => m.put k a) m).find? x = if x ∈ keys then some a else m.find? x := by
  induction keys generalizing m with
  | nil => simp
  | cons k keys ih =>
    rw [List.foldl_cons, ih, find?_put]
    by_cases hx : x = k
    · simp [hx]
    · simp [hx]

/-- A value that is found after a list of values was written was one of the list. -/
theorem mem_of_find?_foldl_put {β : Type} {f : β → κ} {values : List β} {m : Keyed κ β} {x : κ}
    {b : β} (h : (values.foldl (fun m b => m.put (f b) b) m).find? x = some b) :
    b ∈ values ∨ m.find? x = some b := by
  induction values generalizing m with
  | nil => exact Or.inr h
  | cons c values ih =>
    rcases ih h with hmem | hfind
    · exact Or.inl (List.mem_cons_of_mem c hmem)
    · rw [find?_put] at hfind
      split_ifs at hfind
      · exact Or.inl (Option.some.inj hfind ▸ List.mem_cons_self)
      · exact Or.inr hfind

/-- Of several values that are written under their keys, the last one of a key is found. -/
theorem find?_foldl_put_values {β : Type} (f : β → κ) (values : List β) (m : Keyed κ β) (x : κ) :
    (values.foldl (fun m b => m.put (f b) b) m).find? x =
      (values.reverse.find? fun b => decide (f b = x)).or (m.find? x) := by
  induction values generalizing m with
  | nil => rfl
  | cons b values ih =>
    rw [List.foldl_cons, ih, find?_put, List.reverse_cons, List.find?_append, Option.or_assoc]
    by_cases hx : x = f b
    · simp [hx]
    · simp [hx, Ne.symm hx]

end Reconcile.Keyed
