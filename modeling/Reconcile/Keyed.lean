/-!
# Keyed collections

Values under keys, each key once, in the order in which the keys were first put. The absence of
repeated keys is part of the type, so the number of pairs is the number of keys.

* **Look-up after a write**: `Keyed.find?_put_self`, `Keyed.find?_put_of_ne`.
* **Look-up after a removal**: `Keyed.find?_erase_self`, `Keyed.find?_erase_of_ne`.
* **Restriction**: `Keyed.find?_keep` says that `keep` leaves exactly the keys that satisfy the
  predicate.
-/

namespace Reconcile

/-- Values under pairwise distinct keys. -/
structure Keyed (κ α : Type) where
  pairs : List (κ × α)
  distinct : (pairs.map Prod.fst).Nodup

namespace Keyed

variable {κ α : Type}

/-- The collection without keys. -/
def empty : Keyed κ α := ⟨[], List.nodup_nil⟩

instance : Inhabited (Keyed κ α) := ⟨empty⟩

instance : EmptyCollection (Keyed κ α) := ⟨empty⟩

/-- The keys, in the order in which they were first put. -/
def keys (m : Keyed κ α) : List κ := m.pairs.map Prod.fst

/-- The values, in the order of their keys. -/
def values (m : Keyed κ α) : List α := m.pairs.map Prod.snd

/-- The number of keys. -/
def size (m : Keyed κ α) : Nat := m.pairs.length

variable [DecidableEq κ]

/-- The value that a list of pairs gives to a key. -/
def lookup (k : κ) : List (κ × α) → Option α
  | [] => none
  | (k', a) :: rest => if k = k' then some a else lookup k rest

/-- The value under a key. -/
def find? (m : Keyed κ α) (k : κ) : Option α := lookup k m.pairs

/-- Writes a value under a key of a list of pairs, in place when the key is there and at the end
otherwise. -/
def write (k : κ) (a : α) : List (κ × α) → List (κ × α)
  | [] => [(k, a)]
  | (k', b) :: rest => if k = k' then (k, a) :: rest else (k', b) :: write k a rest

private theorem mem_keys_write {k x : κ} {a : α} {l : List (κ × α)}
    (h : x ∈ (write k a l).map Prod.fst) : x = k ∨ x ∈ l.map Prod.fst := by
  induction l with
  | nil => simpa [write] using h
  | cons pair rest ih =>
    obtain ⟨k', b⟩ := pair
    unfold write at h
    split at h
    · rename_i heq
      subst heq
      exact Or.inr h
    · rcases List.mem_cons.mp h with rfl | h
      · simp
      · rcases ih h with rfl | h
        · exact Or.inl rfl
        · exact Or.inr (List.mem_cons_of_mem _ h)

private theorem nodup_write (k : κ) (a : α) {l : List (κ × α)} (h : (l.map Prod.fst).Nodup) :
    ((write k a l).map Prod.fst).Nodup := by
  induction l with
  | nil => simp [write]
  | cons pair rest ih =>
    obtain ⟨k', b⟩ := pair
    have ⟨hnot, hrest⟩ := List.nodup_cons.mp h
    unfold write
    split
    · rename_i heq
      subst heq
      exact h
    · rename_i hne
      refine List.nodup_cons.mpr ⟨fun hmem => ?_, ih hrest⟩
      rcases mem_keys_write hmem with heq | hmem
      · exact hne heq.symm
      · exact hnot hmem

/-- Puts a value under a key, replacing the value that was there. -/
def put (m : Keyed κ α) (k : κ) (a : α) : Keyed κ α :=
  ⟨write k a m.pairs, nodup_write k a m.distinct⟩

/-- The part of a collection whose keys satisfy `p`. -/
def keep (m : Keyed κ α) (p : κ → Bool) : Keyed κ α :=
  ⟨m.pairs.filter fun pair => p pair.1,
    m.distinct.sublist (List.Sublist.map _ List.filter_sublist)⟩

/-- Takes a key out. -/
def erase (m : Keyed κ α) (k : κ) : Keyed κ α :=
  m.keep fun k' => ! decide (k' = k)

/-! ### Look-ups -/

@[simp]
theorem find?_empty (k : κ) : (empty : Keyed κ α).find? k = none := rfl

/-- A key that was put has the value that was put. -/
@[simp]
theorem find?_put_self (m : Keyed κ α) (k : κ) (a : α) : (m.put k a).find? k = some a := by
  suffices ∀ l : List (κ × α), lookup k (write k a l) = some a from this m.pairs
  intro l
  induction l with
  | nil => simp [write, lookup]
  | cons pair rest ih =>
    unfold write
    split
    · simp [lookup]
    · rename_i hne
      simp [lookup, hne, ih]

/-- Putting a key leaves the other keys as they were. -/
theorem find?_put_of_ne (m : Keyed κ α) {k x : κ} (hne : x ≠ k) (a : α) :
    (m.put k a).find? x = m.find? x := by
  suffices ∀ l : List (κ × α), lookup x (write k a l) = lookup x l from this m.pairs
  intro l
  induction l with
  | nil => simp [write, lookup, hne]
  | cons pair rest ih =>
    unfold write
    split
    · rename_i heq
      simp [lookup, hne, ← heq]
    · simp [lookup, ih]

/-- `keep` leaves exactly the keys that satisfy the predicate. -/
theorem find?_keep (m : Keyed κ α) (p : κ → Bool) (k : κ) :
    (m.keep p).find? k = if p k then m.find? k else none := by
  suffices ∀ l : List (κ × α),
      lookup k (l.filter fun pair => p pair.1) = if p k then lookup k l else none from this m.pairs
  intro l
  induction l with
  | nil => simp [lookup]
  | cons pair rest ih =>
    obtain ⟨k', a⟩ := pair
    by_cases hp : p k'
    · by_cases hk : k = k'
      · subst hk
        simp [lookup, hp]
      · simp [lookup, hp, hk, ih]
    · by_cases hk : k = k'
      · subst hk
        simp [hp, ih]
      · simp [lookup, hp, hk, ih]

/-- A key that was taken out is gone. -/
@[simp]
theorem find?_erase_self (m : Keyed κ α) (k : κ) : (m.erase k).find? k = none := by
  simp [erase, find?_keep]

/-- Taking a key out leaves the other keys as they were. -/
theorem find?_erase_of_ne (m : Keyed κ α) {k x : κ} (hne : x ≠ k) :
    (m.erase k).find? x = m.find? x := by
  simp [erase, find?_keep, hne]

end Keyed

end Reconcile
