import Mathlib.Data.List.Forall2
import Mathlib.Data.List.Induction
import Mathlib.Tactic.SplitIfs
import Reconcile.Proofs.Keyed

/-!
# Histories of keyed collections

A keyed collection that is only ever put to and erased from is told by the history of its changes.

* `Keyed.find?_ofHistory_iff`: a key has the value that was put under it last, unless it was erased
  since.
* `Keyed.exists_places`: the keys stand in the order in which they were put when they were not there
  (`Keyed.InsertedAt`).
-/

namespace Reconcile.Keyed

variable {κ α : Type}

/-- A change of a keyed collection. -/
inductive Change (κ α : Type) where
  | put (key : κ) (value : α)
  | erase (key : κ)

/-- The key that a change is about. -/
def Change.key : Change κ α → κ
  | .put key _ => key
  | .erase key => key

/-- What has happened to a collection, the oldest change first. -/
abbrev History (κ α : Type) := List (Change κ α)

/-- A key was inserted at a place of a history: it was put there, whatever had been put under it
before had been erased again, and it was not erased since. -/
def InsertedAt (history : History κ α) (k : κ) (place : Nat) : Prop :=
  ∃ before a rest, history = before ++ .put k a :: rest ∧ before.length = place ∧
    .erase k ∉ rest ∧
    ∀ earlier old between, before = earlier ++ .put k old :: between → .erase k ∈ between

/-- A key stays where it was inserted until it is erased. -/
theorem InsertedAt.snoc {history : History κ α} {k : κ} {place : Nat}
    (h : InsertedAt history k place) {c : Change κ α} (hc : c ≠ .erase k) :
    InsertedAt (history ++ [c]) k place := by
  obtain ⟨before, a, rest, rfl, hplace, hrest, hbefore⟩ := h
  refine ⟨before, a, rest ++ [c], by simp, hplace, ?_, hbefore⟩
  rw [List.mem_append, List.mem_singleton, not_or]
  exact ⟨hrest, hc.symm⟩

theorem InsertedAt.lt_length {history : History κ α} {k : κ} {place : Nat}
    (h : InsertedAt history k place) : place < history.length := by
  obtain ⟨before, a, rest, rfl, rfl, -, -⟩ := h
  rw [List.length_append, List.length_cons]
  omega

variable [DecidableEq κ]

/-- Makes a change. -/
def Change.apply (m : Keyed κ α) : Change κ α → Keyed κ α
  | .put k a => m.put k a
  | .erase k => m.erase k

/-- The collection that a history leaves behind. -/
def ofHistory (history : History κ α) : Keyed κ α :=
  history.foldl Change.apply empty

@[simp]
theorem ofHistory_nil : (ofHistory [] : Keyed κ α) = empty := rfl

theorem ofHistory_append (h rest : History κ α) :
    ofHistory (h ++ rest) = rest.foldl Change.apply (ofHistory h) :=
  List.foldl_append

theorem ofHistory_snoc (h : History κ α) (c : Change κ α) :
    ofHistory (h ++ [c]) = c.apply (ofHistory h) :=
  ofHistory_append h [c]

/-! ### Keys -/

theorem mem_keys_iff {m : Keyed κ α} {k : κ} : k ∈ m.keys ↔ (m.find? k).isSome := by
  rw [Option.isSome_iff_exists]
  constructor
  · intro hmem
    obtain ⟨⟨_, a⟩, hpair, rfl⟩ := List.mem_map.mp hmem
    exact ⟨a, find?_eq_some_iff.mpr hpair⟩
  · rintro ⟨a, ha⟩
    exact List.mem_map_of_mem (find?_eq_some_iff.mp ha)

/-- A key that is put again stays where it is, and a key that is not there goes to the end. -/
theorem keys_put (m : Keyed κ α) (k : κ) (a : α) :
    (m.put k a).keys = if k ∈ m.keys then m.keys else m.keys ++ [k] := by
  suffices ∀ l : List (κ × α), (write k a l).map Prod.fst =
      if k ∈ l.map Prod.fst then l.map Prod.fst else l.map Prod.fst ++ [k] from this m.pairs
  intro l
  induction l with
  | nil => rfl
  | cons pair rest ih =>
    obtain ⟨k', b⟩ := pair
    unfold write
    by_cases hk : k = k'
    · simp [hk]
    · rw [if_neg hk, List.map_cons, ih]
      split_ifs <;> simp_all

theorem keys_erase (m : Keyed κ α) (k : κ) :
    (m.erase k).keys = m.keys.filter fun k' => ! decide (k' = k) := by
  simp only [keys, erase, keep, List.filter_map]
  rfl

/-! ### Pairs -/

/-- Each key has one value. -/
theorem value_inj {m : Keyed κ α} {k : κ} {a b : α} (ha : (k, a) ∈ m.pairs)
    (hb : (k, b) ∈ m.pairs) : a = b :=
  Option.some.inj ((find?_eq_some_iff.mpr ha).symm.trans (find?_eq_some_iff.mpr hb))

/-- What is left once several keys were erased. -/
theorem pairs_foldl_erase (keys : List κ) (m : Keyed κ α) :
    (keys.foldl erase m).pairs = m.pairs.filter fun pair => decide (pair.1 ∉ keys) := by
  induction keys generalizing m with
  | nil => simp
  | cons k keys ih =>
    rw [List.foldl_cons, ih, erase, keep, List.filter_filter]
    exact List.filter_congr fun pair _ => by
      rw [Bool.eq_iff_iff]
      simp
      tauto

/-- Erasing the keys of some pairs takes out these pairs. -/
theorem pairs_foldl_erase_filter (m : Keyed κ α) (p : κ × α → Bool) :
    (((m.pairs.filter p).map Prod.fst).foldl erase m).pairs =
      m.pairs.filter fun pair => ! p pair := by
  rw [pairs_foldl_erase]
  refine List.filter_congr fun ⟨k, a⟩ hpair => ?_
  have hmem : k ∈ (m.pairs.filter p).map Prod.fst ↔ p (k, a) = true := by
    constructor
    · intro hmem
      obtain ⟨⟨_, b⟩, hkept, rfl⟩ := List.mem_map.mp hmem
      obtain ⟨hother, hp⟩ := List.mem_filter.mp hkept
      rwa [value_inj hpair hother]
    · exact fun hp => List.mem_map_of_mem (List.mem_filter.mpr ⟨hpair, hp⟩)
  simp [hmem]

/-- The pairs of a key are what is found under it. -/
theorem filter_key_eq (m : Keyed κ α) (k : κ) :
    (m.pairs.filter fun pair => decide (pair.1 = k)).map Prod.snd = (m.find? k).toList := by
  obtain ⟨pairs, hdistinct⟩ := m
  change _ = (lookup k pairs).toList
  induction pairs with
  | nil => rfl
  | cons pair rest ih =>
    obtain ⟨k', a⟩ := pair
    obtain ⟨hnot, hrest⟩ := List.nodup_cons.mp hdistinct
    unfold lookup
    split_ifs with hk
    · subst hk
      -- no other pair has the key of the first one
      have hnone : rest.filter (fun pair => decide (pair.1 = k)) = [] :=
        List.filter_eq_nil_iff.mpr fun pair hpair heq =>
          hnot (List.mem_map.mpr ⟨pair, hpair, of_decide_eq_true heq⟩)
      simp [hnone]
    · rw [List.filter_cons_of_neg (by simpa using Ne.symm hk)]
      exact ih hrest

/-! ### Values -/

theorem find?_apply_of_ne (m : Keyed κ α) {c : Change κ α} {k : κ} (hne : c.key ≠ k) :
    (c.apply m).find? k = m.find? k := by
  cases c with
  | put _ a => exact find?_put_of_ne m hne.symm a
  | erase _ => exact find?_erase_of_ne m hne.symm

/-- Changes of other keys leave a key as it was. -/
theorem find?_foldl_apply_of_ne {rest : History κ α} {k : κ} (hrest : ∀ c ∈ rest, c.key ≠ k)
    (m : Keyed κ α) : (rest.foldl Change.apply m).find? k = m.find? k := by
  induction rest generalizing m with
  | nil => rfl
  | cons c rest ih =>
    obtain ⟨hne, hrest⟩ := List.forall_mem_cons.mp hrest
    rw [List.foldl_cons, ih hrest, find?_apply_of_ne m hne]

/-- **What is found under a key**: what was put under it last, unless it was erased since. -/
theorem find?_ofHistory_iff {history : History κ α} {k : κ} {a : α} :
    (ofHistory history).find? k = some a ↔
      ∃ before rest, history = before ++ .put k a :: rest ∧ ∀ c ∈ rest, c.key ≠ k := by
  constructor
  · intro hfind
    induction history using List.reverseRecOn with
    | nil => cases hfind
    | append_singleton history c ih =>
      rw [ofHistory_snoc] at hfind
      by_cases hc : c.key = k
      · subst hc
        cases c with
        | put k' b =>
          obtain rfl : b = a := Option.some.inj ((find?_put_self _ _ _).symm.trans hfind)
          exact ⟨history, [], rfl, by simp⟩
        | erase k' => cases (find?_erase_self _ _).symm.trans hfind
      · obtain ⟨before, rest, rfl, hrest⟩ := ih ((find?_apply_of_ne _ hc).symm.trans hfind)
        refine ⟨before, rest ++ [c], by simp, fun c' hc' => ?_⟩
        rcases List.mem_append.mp hc' with hc' | hc'
        · exact hrest c' hc'
        · rwa [List.mem_singleton.mp hc']
  · rintro ⟨before, rest, rfl, hrest⟩
    rw [ofHistory_append, List.foldl_cons, find?_foldl_apply_of_ne hrest]
    exact find?_put_self _ k a

/-- A key that was put and not erased since is there. -/
theorem isSome_find?_of_put {before rest : History κ α} {k : κ} {a : α} (h : .erase k ∉ rest) :
    ((ofHistory (before ++ .put k a :: rest)).find? k).isSome := by
  induction rest using List.reverseRecOn with
  | nil =>
    rw [ofHistory_snoc]
    exact Option.isSome_iff_exists.mpr ⟨a, find?_put_self _ k a⟩
  | append_singleton rest c ih =>
    rw [List.mem_append, List.mem_singleton, not_or] at h
    rw [← List.cons_append, ← List.append_assoc, ofHistory_snoc]
    cases c with
    | put k' b =>
      rw [Change.apply, find?_put]
      split_ifs
      · rfl
      · exact ih h.1
    | erase k' =>
      have hne : k ≠ k' := fun heq => h.2 (heq ▸ rfl)
      rw [Change.apply, find?_erase_of_ne _ hne]
      exact ih h.1

/-! ### Order -/

/-- A key that is not there is inserted by putting it. -/
theorem insertedAt_put {history : History κ α} {k : κ} (hnew : k ∉ (ofHistory history).keys)
    (a : α) : InsertedAt (history ++ [.put k a]) k history.length := by
  refine ⟨history, a, [], rfl, rfl, List.not_mem_nil, ?_⟩
  rintro earlier old between rfl
  by_contra herase
  exact hnew (mem_keys_iff.mpr (isSome_find?_of_put herase))

/-- What is left of one list pairs off with a part of the other. -/
theorem exists_forall₂_filter {β γ : Type} {R : β → γ → Prop} (p : β → Bool) {l : List β}
    {l' : List γ} (h : List.Forall₂ R l l') :
    ∃ l'', l''.Sublist l' ∧ List.Forall₂ (fun b c => p b = true ∧ R b c) (l.filter p) l'' := by
  induction h with
  | nil => exact ⟨[], .slnil, .nil⟩
  | @cons b c l l' hbc _ ih =>
    obtain ⟨l'', hsub, hpairs⟩ := ih
    by_cases hp : p b
    · rw [List.filter_cons_of_pos hp]
      exact ⟨c :: l'', hsub.cons_cons c, .cons ⟨hp, hbc⟩ hpairs⟩
    · rw [List.filter_cons_of_neg hp]
      exact ⟨l'', hsub.cons c, hpairs⟩

/-- **The order of the keys** is the order of the places at which they were inserted. -/
theorem exists_places (history : History κ α) :
    ∃ places : List Nat, places.Pairwise (· < ·) ∧
      List.Forall₂ (InsertedAt history) (ofHistory history).keys places := by
  induction history using List.reverseRecOn with
  | nil => exact ⟨[], .nil, .nil⟩
  | append_singleton history c ih =>
    obtain ⟨places, hsorted, hplaces⟩ := ih
    rw [ofHistory_snoc]
    cases c with
    | put k a =>
      have hkept : List.Forall₂ (InsertedAt (history ++ [.put k a])) (ofHistory history).keys
          places :=
        hplaces.imp fun _ _ h => h.snoc (by simp)
      rw [Change.apply, keys_put]
      split_ifs with hk
      · exact ⟨places, hsorted, hkept⟩
      · refine ⟨places ++ [history.length], ?_,
          List.rel_append hkept (.cons (insertedAt_put hk a) .nil)⟩
        rw [List.pairwise_append]
        refine ⟨hsorted, List.pairwise_singleton _ _, fun place hplace last hlast => ?_⟩
        obtain ⟨i, hi, rfl⟩ := List.getElem_of_mem hplace
        rw [List.mem_singleton.mp hlast]
        exact (hplaces.get (hplaces.length_eq ▸ hi) hi).lt_length
    | erase k =>
      obtain ⟨kept, hsub, hkept⟩ := exists_forall₂_filter (fun k' => ! decide (k' = k)) hplaces
      rw [Change.apply, keys_erase]
      refine ⟨kept, hsorted.sublist hsub, hkept.imp fun other _ h => h.2.snoc fun heq => ?_⟩
      have hne : ¬ other = k := by simpa using h.1
      exact hne (Change.erase.inj heq).symm

end Reconcile.Keyed
