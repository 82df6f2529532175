import Reconcile.Proofs.Cache.Frame

/-!
# What the phases of a call change

The phases of a call are made of the operations of a cache. Two things are said about each here.

**No phase leaves a new placeholder behind.** `Cache.Calm c c'` says that `c'` came from `c` without
a placeholder being put into a slot: every placeholder in a slot of `c'` was in that slot before.
All phases but the start of a read are calm, so that a placeholder in a slot can be traced back to
the read that put it there.

**Settling**, the one phase that moves records between slots, is described by its effect on the two
views: `Crud.recordAt?_settle`, `Crud.entity?_settle`.
-/

namespace Reconcile

namespace Cache

variable {α : Type} {c c' c'' : Cache α}

/-- A later cache of the same run, in which no slot holds a placeholder that it did not hold
before. -/
structure Calm (c c' : Cache α) : Prop where
  sound : c'.Sound
  has : ∀ {h}, c.Has h → c'.Has h
  bare : ∀ {s h}, c'.recordAt? s = some h → c'.entity? h = none →
    c.recordAt? s = some h ∧ c.entity? h = none

theorem Calm.refl (hc : c.Sound) : Calm c c := ⟨hc, id, fun hs he => ⟨hs, he⟩⟩

theorem Calm.trans (h₁ : Calm c c') (h₂ : Calm c' c'') : Calm c c'' :=
  ⟨h₂.sound, fun hh => h₂.has (h₁.has hh), fun hs he =>
    have ⟨hs', he'⟩ := h₂.bare hs he
    h₁.bare hs' he'⟩

/-- Vacating slots is calm. -/
theorem Calm.of_vacated (hc : c.Sound) (hrecords : c'.records = c.records)
    (hsub : ∀ {s h}, c'.recordAt? s = some h → c.recordAt? s = some h) : Calm c c' := by
  have hhas : ∀ h, c.Has h → c'.Has h := fun h hh => by rwa [Has, hrecords]
  refine ⟨⟨fun hs => hhas _ (hc.has (hsub hs)), fun hs => hc.kind_eq (hsub hs)⟩, hhas _,
    fun hs he => ⟨hsub hs, ?_⟩⟩
  rwa [entity?, hrecords] at he

theorem calm_evict (hc : c.Sound) (side : Side) (type : EntityType) (key : String) :
    Calm c (c.evict side type key) :=
  Calm.of_vacated hc rfl fun hs => by
    rw [recordAt?_evict] at hs
    split_ifs at hs
    exact hs

theorem calm_evictRecord (hc : c.Sound) (side : Side) (key : String) (h : Handle) :
    Calm c (c.evictRecord side key h) :=
  Calm.of_vacated hc rfl fun hs => by
    rw [recordAt?_evictRecord] at hs
    split_ifs at hs
    exact hs

theorem calm_flush (hc : c.Sound) (side : Side) : Calm c (c.flush side) :=
  Calm.of_vacated hc rfl fun hs => by
    rw [recordAt?_flush] at hs
    split_ifs at hs
    exact hs

theorem calm_fill (hc : c.Sound) {h : Handle} (hh : c.Has h) (e : α) : Calm c (c.fill h e) := by
  refine ⟨hc.fill h e, (has_fill c h e _).mpr, fun hs he => ⟨hs, ?_⟩⟩
  rw [entity?_fill hh] at he
  split_ifs at he
  exact he

theorem calm_modify (hc : c.Sound) (h : Handle) (f : α → α) : Calm c (c.modify h f) := by
  have hhas : ∀ {k}, c.Has k → (c.modify h f).Has k := fun hk => (has_modify c h f _).mpr hk
  refine ⟨⟨fun hs => hhas (hc.has hs), fun hs => hc.kind_eq hs⟩, hhas, fun hs he => ⟨hs, ?_⟩⟩
  rw [entity?_modify] at he
  split_ifs at he
  · exact Option.map_eq_none_iff.mp he
  · exact he

/-- Merging is calm, since the record that enters the slot is filled. -/
theorem calm_mergeInto (hc : c.Sound) (side : Side) {type : EntityType} (key : String)
    {candidate : Option Handle} (hcand : c.Admits type candidate) (e : α) :
    Calm c (c.mergeInto side type key candidate e).2 := by
  refine ⟨hc.mergeInto side type key e hcand, Has.mergeInto side type key e, fun hs he => ?_⟩
  rw [entity?_mergeInto side type key e hc hcand] at he
  split_ifs at he with hplace
  rw [recordAt?_mergeInto side type key e hcand] at hs
  split_ifs at hs with hslot
  · cases hs
    exact absurd rfl hplace
  · exact ⟨hs, he⟩

/-- After a merge the slot of the key holds no placeholder. -/
theorem entity?_merged (hc : c.Sound) (side : Side) {type : EntityType} (key : String)
    {candidate : Option Handle} (hcand : c.Admits type candidate) (e : α) :
    (c.mergeInto side type key candidate e).2.entity?
      (c.mergeInto side type key candidate e).1 = some e := by
  rw [entity?_mergeInto side type key e hc hcand, if_pos rfl]

/-- Merging empties no record. -/
theorem entity?_mergeInto_ne_none (hc : c.Sound) (side : Side) {type : EntityType} (key : String)
    {candidate : Option Handle} (hcand : c.Admits type candidate) (e : α) {k : Handle}
    (hk : c.entity? k ≠ none) : (c.mergeInto side type key candidate e).2.entity? k ≠ none := by
  rw [entity?_mergeInto side type key e hc hcand]
  split_ifs
  · exact Option.some_ne_none e
  · exact hk

theorem Admits.mono {type : EntityType} {candidate : Option Handle} (h : c.Admits type candidate)
    (hcalm : Calm c c') : c'.Admits type candidate :=
  fun k hk => ⟨(h k hk).1, hcalm.has (h k hk).2⟩

end Cache

namespace Crud

open Cache

variable {α : Type} (crud : Crud α) {c : Cache α}

/-! ### Merging lists -/

theorem calm_mergeAll (es : List α) (hc : c.Sound) : Calm c (crud.mergeAll es c).2 := by
  induction es generalizing c with
  | nil => exact Calm.refl hc
  | cons e es ih =>
    have hmerge := calm_mergeInto hc crud.side (crud.keyOf e) (admits_none crud.type) e
    exact hmerge.trans (ih hmerge.sound)

/-- Merging entities leaves the slots of other keys. -/
theorem recordAt?_mergeAll_of_ne {s : Slot} (es : List α) (c : Cache α)
    (hs : ∀ e ∈ es, s ≠ Memo.slot crud.side crud.type (crud.keyOf e)) :
    (crud.mergeAll es c).2.recordAt? s = c.recordAt? s := by
  induction es generalizing c with
  | nil => rfl
  | cons e es ih =>
    obtain ⟨hfirst, hrest⟩ := List.forall_mem_cons.mp hs
    exact (ih _ hrest).trans
      ((recordAt?_mergeInto _ _ _ e (admits_none crud.type) s).trans (if_neg hfirst))

/-- Merging entities leaves what is found under other keys. -/
theorem find?_mergeAll_of_new {key : String} (es : List α) (c : Cache α)
    (hnew : key ∉ es.map crud.keyOf) :
    (crud.mergeAll es c).2.memo.find? crud.side crud.type key =
      c.memo.find? crud.side crud.type key :=
  find?_congr (crud.recordAt?_mergeAll_of_ne es c fun _ he hslot =>
    hnew (Memo.slot_inj.mp hslot ▸ List.mem_map_of_mem he))

/-- What is found under a key is found there after entities were merged. -/
theorem find?_mergeAll_of_some {key : String} {h : Handle} (es : List α)
    (hfound : c.memo.find? crud.side crud.type key = some h) :
    (crud.mergeAll es c).2.memo.find? crud.side crud.type key = some h := by
  induction es generalizing c with
  | nil => exact hfound
  | cons e es ih => exact ih (find?_mergeInto_of_some _ _ _ e (admits_none crud.type) hfound)

variable {crud} in
/-- What is found under the keys when entities have been merged. -/
theorem isSome_find?_mergeAll (es : List α) (c : Cache α) (key : String) :
    ((crud.mergeAll es c).2.memo.find? crud.side crud.type key).isSome ↔
      key ∈ es.map crud.keyOf ∨ (c.memo.find? crud.side crud.type key).isSome := by
  induction es generalizing c with
  | nil => simp [mergeAll]
  | cons e es ih =>
    refine (ih (c.merge crud.side crud.type (crud.keyOf e) e).2).trans ?_
    rw [merge, find?_mergeInto _ _ _ e (admits_none crud.type), List.map_cons, List.mem_cons]
    split_ifs with hkey
    · simp [hkey]
    · simp [hkey]

/-- Merging entities leaves the records that are not found under their keys. -/
theorem entity?_mergeAll_of_ne {k : Handle} (es : List α) (hc : c.Sound) (hk : c.Has k)
    (hne : ∀ e ∈ es, ∀ h, c.memo.find? crud.side crud.type (crud.keyOf e) = some h →
      k.place ≠ h.place) : (crud.mergeAll es c).2.entity? k = c.entity? k := by
  induction es generalizing c with
  | nil => rfl
  | cons e es ih =>
    obtain ⟨hfirst, hrest⟩ := List.forall_mem_cons.mp hne
    have hnone := admits_none (c := c) crud.type
    have hmerged : k.place ≠ (c.merge crud.side crud.type (crud.keyOf e) e).1.place := by
      rw [merge, fst_mergeInto]
      cases hfound : c.memo.find? crud.side crud.type (crud.keyOf e) with
      | some h => exact hfirst h hfound
      | none => exact Nat.ne_of_lt hk
    refine (ih (hc.mergeInto _ _ _ e hnone) (hk.mergeInto _ _ _ e) fun e' he' h hh => ?_).trans
      ((entity?_mergeInto _ _ _ e hc hnone k).trans (if_neg hmerged))
    rw [find?_mergeInto _ _ _ e hnone] at hh
    split_ifs at hh
    · cases hh
      exact hmerged
    · exact hrest e' he' h hh

/-! ### Vacating lists of slots -/

theorem calm_evictAll (keys : List String) (hc : c.Sound) : Calm c (crud.evictAll keys c) := by
  induction keys generalizing c with
  | nil => exact Calm.refl hc
  | cons key keys ih =>
    have hevict := calm_evict hc crud.side crud.type key
    exact hevict.trans (ih hevict.sound)

theorem calm_rollBack (reserved : List Reserved) (hc : c.Sound) :
    Calm c (crud.rollBack reserved c) := by
  induction reserved generalizing c with
  | nil => exact Calm.refl hc
  | cons r rs ih =>
    unfold rollBack
    rw [List.foldl_cons]
    split_ifs
    · have hevict := calm_evictRecord hc crud.side r.key r.record
      exact hevict.trans (ih hevict.sound)
    · exact ih hc

/-- Vacating slots leaves the entities in all records. -/
theorem entity?_evictAll (keys : List String) (c : Cache α) (k : Handle) :
    (crud.evictAll keys c).entity? k = c.entity? k := by
  induction keys generalizing c with
  | nil => rfl
  | cons key keys ih => exact ih (c.evict crud.side crud.type key)

/-- So does rolling back. -/
theorem entity?_rollBack (reserved : List Reserved) (c : Cache α) (k : Handle) :
    (crud.rollBack reserved c).entity? k = c.entity? k := by
  induction reserved generalizing c with
  | nil => rfl
  | cons r rs ih =>
    unfold rollBack
    rw [List.foldl_cons]
    refine (ih _).trans ?_
    split_ifs <;> rfl

/-! ### Reserving for a create call -/

/-- Reserving a taken slot for an input changes nothing. -/
theorem reserveAll_cons_of_some {e : α} {h : Handle}
    (hfound : c.memo.find? crud.side crud.type (crud.keyOf e) = some h) (es : List α) :
    crud.reserveAll (e :: es) c =
      (⟨crud.keyOf e, h, false⟩ :: (crud.reserveAll es c).1, (crud.reserveAll es c).2) := by
  simp [reserveAll, reserve, hfound]

/-- Reserving a vacant slot for an input and filling it with the input is a merge. -/
theorem reserveAll_cons_of_none {e : α}
    (hvacant : c.memo.find? crud.side crud.type (crud.keyOf e) = none) (es : List α) :
    crud.reserveAll (e :: es) c =
      (⟨crud.keyOf e, (c.merge crud.side crud.type (crud.keyOf e) e).1, true⟩ ::
          (crud.reserveAll es (c.merge crud.side crud.type (crud.keyOf e) e).2).1,
        (crud.reserveAll es (c.merge crud.side crud.type (crud.keyOf e) e).2).2) := by
  simp [reserveAll, reserve, merge, mergeInto, settleSlot, hvacant]

theorem calm_reserveAll (es : List α) (hc : c.Sound) : Calm c (crud.reserveAll es c).2 := by
  induction es generalizing c with
  | nil => exact Calm.refl hc
  | cons e es ih =>
    cases hfound : c.memo.find? crud.side crud.type (crud.keyOf e) with
    | some h =>
      rw [reserveAll_cons_of_some crud hfound]
      exact ih hc
    | none =>
      rw [reserveAll_cons_of_none crud hfound]
      have hmerge := calm_mergeInto hc crud.side (crud.keyOf e) (admits_none crud.type) e
      exact hmerge.trans (ih hmerge.sound)

/-- A reservation that a create call may rely on: its record exists and is of the right type. -/
def Holds (c : Cache α) (r : Reserved) : Prop := r.record.type = crud.type ∧ c.Has r.record

variable {crud} in
theorem Holds.admits {r : Reserved} (hr : crud.Holds c r) :
    c.Admits crud.type (some r.record) := admits_some crud.type hr.1 hr.2

variable {crud} in
theorem Holds.mono {c' : Cache α} {r : Reserved} (hr : crud.Holds c r) (h : Calm c c') :
    crud.Holds c' r := ⟨hr.1, h.has hr.2⟩

variable {crud} in
/-- A record that is found under a key may be relied on. -/
theorem holds_of_find? (hc : c.Sound) {r : Reserved}
    (hr : c.memo.find? crud.side crud.type r.key = some r.record) : crud.Holds c r := by
  obtain ⟨hslot, htype⟩ := find?_eq_some.mp hr
  exact ⟨htype, hc.has hslot⟩

/-- All reservations of a create call hold. -/
theorem holds_reserveAll (es : List α) (hc : c.Sound) :
    ∀ r ∈ (crud.reserveAll es c).1, crud.Holds (crud.reserveAll es c).2 r := by
  induction es generalizing c with
  | nil => exact fun r hr => absurd hr List.not_mem_nil
  | cons e es ih =>
    cases hfound : c.memo.find? crud.side crud.type (crud.keyOf e) with
    | some h =>
      obtain ⟨hslot, htype⟩ := find?_eq_some.mp hfound
      rw [reserveAll_cons_of_some crud hfound]
      refine List.forall_mem_cons.mpr ⟨?_, ih hc⟩
      exact ⟨htype, (calm_reserveAll crud es hc).has (hc.has hslot)⟩
    | none =>
      have hmerge := calm_mergeInto hc crud.side (crud.keyOf e) (admits_none crud.type) e
      rw [reserveAll_cons_of_none crud hfound]
      refine List.forall_mem_cons.mpr ⟨?_, ih hmerge.sound⟩
      refine ⟨type_mergeInto _ _ _ e (admits_none _), ?_⟩
      exact (calm_reserveAll crud es hmerge.sound).has (hc.has_merged _ _ _ e (admits_none _))

/-- The reservations stand in the order of the inputs, each under its input's key. -/
theorem map_key_reserveAll (es : List α) (c : Cache α) :
    (crud.reserveAll es c).1.map (·.key) = es.map crud.keyOf := by
  induction es generalizing c with
  | nil => rfl
  | cons e es ih => simp only [reserveAll, List.map_cons, ih]

theorem length_reserveAll (es : List α) (c : Cache α) :
    (crud.reserveAll es c).1.length = es.length := by
  have h := congrArg List.length (map_key_reserveAll crud es c)
  rwa [List.length_map, List.length_map] at h

/-- What is found under a key is found there after slots were reserved. -/
theorem find?_reserveAll_of_some {key : String} {h : Handle} (es : List α)
    (hfound : c.memo.find? crud.side crud.type key = some h) :
    (crud.reserveAll es c).2.memo.find? crud.side crud.type key = some h := by
  induction es generalizing c with
  | nil => exact hfound
  | cons e es ih =>
    cases hfirst : c.memo.find? crud.side crud.type (crud.keyOf e) with
    | some k =>
      rw [reserveAll_cons_of_some crud hfirst]
      exact ih hfound
    | none =>
      rw [reserveAll_cons_of_none crud hfirst]
      refine ih ?_
      have hne : key ≠ crud.keyOf e := by
        rintro rfl
        rw [hfound] at hfirst
        cases hfirst
      rw [merge, find?_mergeInto _ _ _ _ (admits_none _), if_neg hne, hfound]

/-- Reserving slots for inputs leaves what is found under other keys. -/
theorem find?_reserveAll_of_new {key : String} (es : List α) (c : Cache α)
    (hnew : key ∉ es.map crud.keyOf) :
    (crud.reserveAll es c).2.memo.find? crud.side crud.type key =
      c.memo.find? crud.side crud.type key := by
  induction es generalizing c with
  | nil => rfl
  | cons e es ih =>
    rw [List.map_cons, List.mem_cons, not_or] at hnew
    cases hfirst : c.memo.find? crud.side crud.type (crud.keyOf e) with
    | some k =>
      rw [reserveAll_cons_of_some crud hfirst]
      exact ih c hnew.2
    | none =>
      rw [reserveAll_cons_of_none crud hfirst]
      refine (ih _ hnew.2).trans ?_
      rw [merge, find?_mergeInto _ _ _ _ (admits_none _), if_neg hnew.1]

/-- Every reservation of a create call is found under its input's key. -/
theorem find?_reserveAll_of_mem (es : List α) (c : Cache α) :
    ∀ r ∈ (crud.reserveAll es c).1,
      (crud.reserveAll es c).2.memo.find? crud.side crud.type r.key = some r.record := by
  induction es generalizing c with
  | nil => exact fun r hr => absurd hr List.not_mem_nil
  | cons e es ih =>
    cases hfirst : c.memo.find? crud.side crud.type (crud.keyOf e) with
    | some k =>
      rw [reserveAll_cons_of_some crud hfirst]
      exact List.forall_mem_cons.mpr ⟨crud.find?_reserveAll_of_some es hfirst, ih c⟩
    | none =>
      rw [reserveAll_cons_of_none crud hfirst]
      refine List.forall_mem_cons.mpr ⟨crud.find?_reserveAll_of_some es ?_, ih _⟩
      rw [merge, find?_mergeInto _ _ _ _ (admits_none _), if_pos rfl]

/-- A reservation is fresh only if nothing was found under its key. -/
theorem find?_of_fresh (es : List α) (c : Cache α) :
    ∀ r ∈ (crud.reserveAll es c).1, r.fresh → c.memo.find? crud.side crud.type r.key = none := by
  induction es generalizing c with
  | nil => exact fun r hr => absurd hr List.not_mem_nil
  | cons e es ih =>
    cases hfirst : c.memo.find? crud.side crud.type (crud.keyOf e) with
    | some h =>
      rw [reserveAll_cons_of_some crud hfirst]
      exact List.forall_mem_cons.mpr ⟨fun hfresh => absurd hfresh Bool.false_ne_true, ih c⟩
    | none =>
      rw [reserveAll_cons_of_none crud hfirst]
      refine List.forall_mem_cons.mpr ⟨fun _ => hfirst, fun r hr hfresh => ?_⟩
      -- what is not found after the first input was put into its slot was not found before
      have hnone := ih _ r hr hfresh
      rw [merge, find?_mergeInto _ _ _ _ (admits_none _)] at hnone
      split_ifs at hnone
      exact hnone

/-! ### Settling -/

section Settle

variable {r : Reserved} (e : α)

/-- Settling, with the entity that ends in the record written out. -/
theorem settle_eq (hc : c.Sound) (hr : crud.Holds c r) :
    crud.settle r e c =
      ((c.mergeInto crud.side crud.type (crud.keyOf e) (some r.record) e).1,
        if crud.keyOf e = r.key then
          (c.mergeInto crud.side crud.type (crud.keyOf e) (some r.record) e).2
        else if (c.mergeInto crud.side crud.type (crud.keyOf e) (some r.record) e).1 = r.record then
          (c.mergeInto crud.side crud.type (crud.keyOf e) (some r.record) e).2.evictRecord
            crud.side r.key r.record
        else
          ((c.mergeInto crud.side crud.type (crud.keyOf e) (some r.record) e).2.evictRecord
            crud.side r.key r.record).fill r.record e) := by
  have hlatest := entity?_merged hc crud.side (crud.keyOf e) hr.admits e
  unfold settle
  simp only
  split_ifs
  · rfl
  · rfl
  · rw [← entity?_evictRecord _ crud.side r.key r.record] at hlatest
    unfold entity? at hlatest
    rw [hlatest]

/-- The record that a created entity ends in: the one found under its key, or else the one
reserved for it. -/
theorem fst_settle (r : Reserved) (c : Cache α) :
    (crud.settle r e c).1 =
      (c.memo.find? crud.side crud.type (crud.keyOf e)).getD r.record := by
  rw [← Option.getD_some (a := r.record) (b := c.nextRecord crud.type), ← fst_mergeInto _ _ _ _ _ e]
  unfold settle
  simp only
  split_ifs
  · rfl
  · rfl
  · split <;> rfl

theorem type_settle (hr : crud.Holds c r) : (crud.settle r e c).1.type = crud.type := by
  rw [fst_settle]
  cases hfound : c.memo.find? crud.side crud.type (crud.keyOf e) with
  | some h => exact (find?_eq_some.mp hfound).2
  | none => exact hr.1

/-- Settling puts the record of the entity into the slot of its key, and takes the reserved record
out of the slot of another key that it was reserved under. -/
theorem recordAt?_settle (hc : c.Sound) (hr : crud.Holds c r) (s : Slot) :
    (crud.settle r e c).2.recordAt? s =
      if s = Memo.slot crud.side crud.type (crud.keyOf e) then some (crud.settle r e c).1
      else if s = Memo.slot crud.side crud.type r.key ∧ c.recordAt? s = some r.record then none
      else c.recordAt? s := by
  have hmerge := recordAt?_mergeInto crud.side crud.type (crud.keyOf e) e hr.admits s
  rw [settle_eq crud e hc hr]
  by_cases hkey : crud.keyOf e = r.key
  · rw [if_pos hkey, hmerge, hkey]
    split_ifs with hs hmoved
    · rfl
    · exact absurd hmoved.1 hs
    · rfl
  · -- the slot that is vacated is not the one that the record moved to
    have hne : s = Memo.slot crud.side crud.type r.key →
        s ≠ Memo.slot crud.side crud.type (crud.keyOf e) := fun h₁ h₂ =>
      hkey (Memo.slot_inj.mp (h₂.symm.trans h₁))
    have hevict : ((c.mergeInto crud.side crud.type (crud.keyOf e) (some r.record) e).2.evictRecord
        crud.side r.key r.record).recordAt? s =
        if s = Memo.slot crud.side crud.type (crud.keyOf e) then
          some (c.mergeInto crud.side crud.type (crud.keyOf e) (some r.record) e).1
        else if s = Memo.slot crud.side crud.type r.key ∧ c.recordAt? s = some r.record then none
        else c.recordAt? s := by
      rw [recordAt?_evictRecord, hmerge, hr.1]
      by_cases hs : s = Memo.slot crud.side crud.type r.key
      · simp only [hs, if_neg (hs ▸ hne hs)]
      · simp only [hs, false_and, if_false]
    rw [if_neg hkey]
    split_ifs at hevict ⊢ <;> simpa using hevict

/-- What is found under the keys after an entity was settled. -/
theorem find?_settle (hc : c.Sound) (hr : crud.Holds c r) (key : String) :
    (crud.settle r e c).2.memo.find? crud.side crud.type key =
      if key = crud.keyOf e then some (crud.settle r e c).1
      else if key = r.key ∧ c.memo.find? crud.side crud.type key = some r.record then none
      else c.memo.find? crud.side crud.type key := by
  have hslot := recordAt?_settle crud e hc hr (Memo.slot crud.side crud.type key)
  have hheld : c.memo.find? crud.side crud.type key = some r.record ↔
      c.recordAt? (Memo.slot crud.side crud.type key) = some r.record := by
    simp [find?_eq_some, hr.1]
  simp only [Memo.slot_inj, ← hheld] at hslot
  split_ifs at hslot ⊢
  · exact find?_eq_some.mpr ⟨hslot, type_settle crud e hr⟩
  · exact find?_eq_none_of_recordAt? hslot
  · exact find?_congr hslot

/-- A reservation under another key stays where it is, also under the key of the entity. -/
theorem find?_settle_of_seated {r' : Reserved} (hc : c.Sound) (hr : crud.Holds c r)
    (hne : r'.key ≠ r.key)
    (hr' : c.memo.find? crud.side crud.type r'.key = some r'.record) :
    (crud.settle r e c).2.memo.find? crud.side crud.type r'.key = some r'.record := by
  rw [find?_settle crud e hc hr, fst_settle]
  split_ifs with hkey hleft
  · rw [← hkey, hr', Option.getD_some]
  · exact absurd hleft.1 hne
  · exact hr'

/-- Settling fills the record of the entity, and for those who hold it also the reserved record if
the entity has got another key. -/
theorem entity?_settle (hc : c.Sound) (hr : crud.Holds c r) (k : Handle) :
    (crud.settle r e c).2.entity? k =
      if k.place = (crud.settle r e c).1.place ∨
          (crud.keyOf e ≠ r.key ∧ k.place = r.record.place) then some e
      else c.entity? k := by
  have hmerge := entity?_mergeInto crud.side crud.type (crud.keyOf e) e hc hr.admits k
  rw [settle_eq crud e hc hr]
  by_cases hkey : crud.keyOf e = r.key
  · rw [if_pos hkey, hmerge]
    simp [hkey]
  · rw [if_neg hkey]
    -- the reserved record is filled by itself only if the entity ended in another one
    split_ifs with hsame hk hk
    · rw [entity?_evictRecord, hmerge, if_pos]
      rcases hk with hk | ⟨-, hk⟩
      · exact hk
      · rw [hsame]
        exact hk
    · rw [entity?_evictRecord, hmerge, if_neg fun h => hk (Or.inl h)]
    · rw [entity?_fill (by simpa using Has.mergeInto _ _ _ e hr.2), entity?_evictRecord, hmerge]
      split_ifs with h₁ h₂
      · rfl
      · rfl
      · rcases hk with hk | ⟨-, hk⟩
        · exact absurd hk h₂
        · exact absurd hk h₁
    · rw [entity?_fill (by simpa using Has.mergeInto _ _ _ e hr.2), entity?_evictRecord, hmerge,
        if_neg fun h => hk (Or.inr ⟨hkey, h⟩), if_neg fun h => hk (Or.inl h)]

theorem calm_settle (hc : c.Sound) (hr : crud.Holds c r) : Calm c (crud.settle r e c).2 := by
  have hmerge := calm_mergeInto hc crud.side (crud.keyOf e) hr.admits e
  have hevict := hmerge.trans (calm_evictRecord hmerge.sound crud.side r.key r.record)
  rw [settle_eq crud e hc hr]
  split_ifs
  · exact hmerge
  · exact hevict
  · exact hevict.trans (calm_fill hevict.sound (hevict.has hr.2) e)

end Settle

theorem calm_settleAll (rs : List Reserved) (es : List α) (hc : c.Sound)
    (hrs : ∀ r ∈ rs, crud.Holds c r) : Calm c (crud.settleAll rs es c).2 := by
  induction rs generalizing es c with
  | nil => cases es <;> exact Calm.refl hc
  | cons r rs ih =>
    cases es with
    | nil => exact Calm.refl hc
    | cons e es =>
      have ⟨hr, hrs⟩ := List.forall_mem_cons.mp hrs
      have hsettle := calm_settle crud e hc hr
      exact hsettle.trans (ih es hsettle.sound fun r' hr' => (hrs r' hr').mono hsettle)

/-- One created entity for each reservation: they are settled, also when there are none. -/
theorem finishCreate_of_length {rs : List Reserved} {es : List α} (h : es.length = rs.length)
    (c : Cache α) : crud.finishCreate rs es c = crud.settleAll rs es c := by
  unfold finishCreate
  rw [if_pos h]
  split_ifs with hempty
  · obtain rfl := List.isEmpty_iff.mp hempty
    obtain rfl := List.eq_nil_of_length_eq_zero h.symm
    rfl
  · rfl

/-- Some entities, but not one for each reservation: they are merged, and none is settled. -/
theorem finishCreate_of_ne {rs : List Reserved} {es : List α} (hne : es ≠ [])
    (hlength : es.length ≠ rs.length) (c : Cache α) :
    crud.finishCreate rs es c = crud.mergeAll es c := by
  unfold finishCreate
  rw [if_neg (mt List.isEmpty_iff.mp hne), if_neg hlength]

theorem calm_finishCreate (rs : List Reserved) (es : List α) (hc : c.Sound)
    (hrs : ∀ r ∈ rs, crud.Holds c r) : Calm c (crud.finishCreate rs es c).2 := by
  unfold finishCreate
  split_ifs
  · exact Calm.refl hc
  · exact calm_settleAll crud rs es hc hrs
  · exact calm_mergeAll crud es hc

/-! ### Reading -/

section Read

variable {key : String} {p : Handle}

/-- A read whose key is found is over at once. -/
theorem beginRead_of_some {h : Handle}
    (hfound : c.memo.find? crud.side crud.type key = some h) :
    crud.beginRead key c = (.known h, c) := by
  simp [beginRead, c.reserve_of_some crud.side crud.type key hfound]

/-- A read whose key is not found puts a new record there and asks its backend. -/
theorem beginRead_of_none (hvacant : c.memo.find? crud.side crud.type key = none) :
    crud.beginRead key c =
      (.asked (c.nextRecord crud.type), (c.reserve crud.side crud.type key).2) := by
  have hfresh := c.fresh_reserve crud.side crud.type key
  have hrecord := c.record_reserve crud.side crud.type key
  rw [hvacant] at hfresh hrecord
  simp [beginRead, hfresh, hrecord]

/-- Abandoning a read vacates the slot of its key, where its placeholder is found. -/
theorem recordAt?_abandonRead (hp : c.memo.find? crud.side crud.type key = some p) (s : Slot) :
    (crud.abandonRead key p c).recordAt? s =
      if s = Memo.slot crud.side crud.type key then none else c.recordAt? s := by
  obtain ⟨hslot, htype⟩ := find?_eq_some.mp hp
  rw [abandonRead, recordAt?_evictRecord, htype]
  by_cases hs : s = Memo.slot crud.side crud.type key
  · rw [if_pos hs, if_pos ⟨hs, hs ▸ hslot⟩]
  · rw [if_neg hs, if_neg fun h => hs h.1]

theorem find?_abandonRead (hp : c.memo.find? crud.side crud.type key = some p) (key' : String) :
    (crud.abandonRead key p c).memo.find? crud.side crud.type key' =
      if key' = key then none else c.memo.find? crud.side crud.type key' := by
  have hslot := crud.recordAt?_abandonRead hp (Memo.slot crud.side crud.type key')
  simp only [Memo.slot_inj] at hslot
  split_ifs at hslot ⊢
  · exact find?_eq_none_of_recordAt? hslot
  · exact find?_congr hslot

theorem calm_sight (found : List α) (seen : Sighting) (hc : c.Sound)
    (hp : c.Admits crud.type (some p)) : Calm c (crud.sight key p found seen c).2 := by
  induction found generalizing seen c with
  | nil => exact Calm.refl hc
  | cons e es ih =>
    unfold sight
    simp only
    split_ifs
    · have hmerge := calm_mergeInto hc crud.side key hp e
      exact hmerge.trans (ih _ hmerge.sound (hp.mono hmerge))
    · have hmerge := calm_mergeInto hc crud.side (crud.keyOf e) (admits_none crud.type) e
      exact hmerge.trans (ih _ hmerge.sound (hp.mono hmerge))

theorem calm_finishRead (found : List α) (hc : c.Sound) (hp : c.Admits crud.type (some p)) :
    Calm c (crud.finishRead key p found c).2 := by
  have hsight : Calm c (crud.sight key p found ⟨none, none⟩ c).2 :=
    calm_sight crud found ⟨none, none⟩ hc hp
  unfold finishRead
  simp only
  split
  · exact hsight
  · exact hsight.trans (calm_evictRecord hsight.sound crud.side key p)

/-- What a read has sighted is filled, and the record of the key itself is in the key's slot. -/
structure Sighted (key : String) (seen : Sighting) (c : Cache α) : Prop where
  hit : ∀ h ∈ seen.hit, c.recordAt? (Memo.slot crud.side crud.type key) = some h ∧
    c.entity? h ≠ none
  other : ∀ h ∈ seen.other, c.entity? h ≠ none

theorem sighted_nothing (key : String) (c : Cache α) : crud.Sighted key ⟨none, none⟩ c :=
  ⟨nofun, nofun⟩

variable {crud} in
theorem Sighted.sight (found : List α) {seen : Sighting} (hseen : crud.Sighted key seen c)
    (hc : c.Sound) (hp : c.Admits crud.type (some p)) :
    crud.Sighted key (crud.sight key p found seen c).1 (crud.sight key p found seen c).2 := by
  induction found generalizing seen c with
  | nil => exact hseen
  | cons e es ih =>
    unfold Crud.sight
    simp only
    split_ifs with hkey
    · have hmerge := calm_mergeInto hc crud.side key hp e
      have hslot := recordAt?_mergeInto crud.side crud.type key e hp
        (Memo.slot crud.side crud.type key)
      rw [if_pos rfl] at hslot
      have hfilled := entity?_merged hc crud.side key hp e
      -- the entity of the key itself is what is in the key's slot from now on
      refine ih ⟨fun h hh => ?_, fun h hh => ?_⟩ hmerge.sound (hp.mono hmerge)
      · cases hh
        exact ⟨hslot, by simp [hfilled]⟩
      · exact entity?_mergeInto_ne_none hc crud.side key hp e (hseen.other h hh)
    · have hnone := admits_none (c := c) crud.type
      have hmerge := calm_mergeInto hc crud.side (crud.keyOf e) hnone e
      have hfilled := entity?_merged hc crud.side (crud.keyOf e) hnone e
      -- the entity of another key leaves the key's slot, and is sighted if it is the first such
      refine ih ⟨fun h hh => ?_, fun h hh => ?_⟩ hmerge.sound (hp.mono hmerge)
      · obtain ⟨hslot, hne⟩ := hseen.hit h hh
        refine ⟨?_, entity?_mergeInto_ne_none hc crud.side _ hnone e hne⟩
        rw [merge, recordAt?_mergeInto crud.side crud.type _ e hnone,
          if_neg fun h => hkey (Memo.slot_inj.mp h).symm]
        exact hslot
      · cases hother : seen.other with
        | some k =>
          rw [hother] at hh
          cases hh
          exact entity?_mergeInto_ne_none hc crud.side _ hnone e (hseen.other _ hother)
        | none =>
          rw [hother] at hh
          cases hh
          simp [merge, hfilled]

/-- A read that asks its backend answers with nothing or with a filled record. -/
theorem entity?_finishRead (found : List α) (hc : c.Sound) (hp : c.Admits crud.type (some p)) :
    ∀ h ∈ (crud.finishRead key p found c).1,
      (crud.finishRead key p found c).2.entity? h ≠ none := by
  have hsighted := (sighted_nothing crud key c).sight found hc hp
  unfold finishRead
  simp only
  split
  · rename_i h hhit
    intro k hk
    cases hk
    exact (hsighted.hit h hhit).2
  · exact hsighted.other

/-- When a read ends, its placeholder is not left unfilled in the slot that it was reserved in. -/
theorem filled_of_finishRead (found : List α) (hc : c.Sound) (hp : c.Admits crud.type (some p))
    (hs : (crud.finishRead key p found c).2.recordAt? (Memo.slot crud.side crud.type key) =
      some p) :
    (crud.finishRead key p found c).2.entity? p ≠ none := by
  have hsighted := (sighted_nothing crud key c).sight found hc hp
  unfold finishRead at hs ⊢
  simp only at hs ⊢
  split at hs
  · rename_i h hhit
    obtain ⟨hslot, hne⟩ := hsighted.hit h hhit
    rw [hslot] at hs
    cases hs
    exact hne
  · -- without a hit the placeholder was taken out of the slot
    rw [recordAt?_evictRecord, (hp p rfl).1] at hs
    split_ifs at hs with hheld
    exact absurd ⟨rfl, hs⟩ hheld

end Read

end Crud

end Reconcile
