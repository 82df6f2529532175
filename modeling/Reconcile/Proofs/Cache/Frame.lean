import Reconcile.Crud.Basic
import Reconcile.Proofs.Keyed

/-!
# What the operations of a cache change

A cache is seen through two views: the record in a slot (`Cache.recordAt?`) and the entity in a
record (`Cache.entity?`). Every operation is described here by its effect on the two views, and
nothing after this module unfolds an operation.

* **Reserving** changes one slot and the entity of no record: `Cache.recordAt?_reserve`,
  `Cache.entity?_reserve`.
* **Merging** changes one slot and one record: `Cache.recordAt?_mergeInto`,
  `Cache.entity?_mergeInto`.
* **Changing an entity** changes one record: `Cache.entity?_modify`.
* **Vacating** changes slots only: `Cache.recordAt?_evict`, `Cache.recordAt?_evictRecord`,
  `Cache.recordAt?_flush`.

A cache is *sound* if every slot holds a record that exists and is of a type of the slot's kind.
Every operation keeps a cache sound.
-/

namespace Reconcile

namespace Records

variable {α : Type}

/-- A new placeholder adds no entity: a record that did not exist had none either. -/
theorem value?_add_none (r : Records α) (type : EntityType) (h : Handle) :
    (r.add type none).2.value? h = r.value? h := by
  -- below, at and beyond the place of the new record
  rcases Nat.lt_trichotomy h.place r.cells.size with hlt | heq | hgt
  · exact value?_add_of_lt r type none hlt
  · simp [value?, add, heq]
  · have hnew : (r.cells.push none).size ≤ h.place := by
      rw [Array.size_push]
      omega
    simp only [value?, add]
    rw [Array.getElem?_eq_none hnew, Array.getElem?_eq_none (Nat.le_of_lt hgt)]

/-- A record is known by its place. -/
theorem value?_congr (r : Records α) {h k : Handle} (hplace : h.place = k.place) :
    r.value? h = r.value? k := by
  rw [value?, value?, hplace]

/-- The entity in any record after one record was filled. -/
theorem value?_fill (r : Records α) {h : Handle} (hlt : h.place < r.cells.size) (e : α)
    (k : Handle) :
    (r.fill h e).value? k = if k.place = h.place then some e else r.value? k := by
  split_ifs with hk
  · exact (value?_congr _ hk).trans (value?_fill_self r hlt e)
  · exact value?_fill_of_ne r hk e

@[simp]
theorem size_fill (r : Records α) (h : Handle) (e : α) :
    (r.fill h e).cells.size = r.cells.size := by
  simp [fill]

/-- The entity in any record after the entity in one record was changed. -/
theorem value?_modify (r : Records α) (h : Handle) (f : α → α) (k : Handle) :
    (r.modify h f).value? k =
      if k.place = h.place then (r.value? k).map f else r.value? k := by
  unfold modify
  cases he : r.value? h with
  | none =>
    split_ifs with hk
    · rw [value?_congr r hk, he, Option.map_none]
    · rfl
  | some e =>
    have hlt : h.place < r.cells.size := Nat.lt_of_not_le fun hge => by
      simp [value?, Array.getElem?_eq_none hge] at he
    simp only
    rw [value?_fill r hlt]
    split_ifs with hk
    · rw [value?_congr r hk, he, Option.map_some]
    · rfl

@[simp]
theorem size_modify (r : Records α) (h : Handle) (f : α → α) :
    (r.modify h f).cells.size = r.cells.size := by
  unfold modify
  cases r.value? h <;> simp

@[simp]
theorem size_add (r : Records α) (type : EntityType) (entity : Option α) :
    (r.add type entity).2.cells.size = r.cells.size + 1 := by
  simp [add]

end Records

/-- Slots of one side and type are told apart by their keys. -/
@[simp]
theorem Memo.slot_inj {side : Side} {type : EntityType} {key key' : String} :
    Memo.slot side type key = Memo.slot side type key' ↔ key = key' := by
  simp [Memo.slot]

namespace Cache

variable {α : Type} (c : Cache α)

/-! ### The two views -/

/-- The record in a slot, of whatever type it is. -/
def recordAt? (s : Slot) : Option Handle := c.memo.slots.find? s

/-- The entity in a record, unless the record is a placeholder. -/
def entity? (h : Handle) : Option α := c.records.value? h

/-- Handles of one place see one entity. -/
theorem entity?_congr {h k : Handle} (hplace : h.place = k.place) : c.entity? h = c.entity? k :=
  c.records.value?_congr hplace

/-- Whether a record exists. -/
def Has (h : Handle) : Prop := h.place < c.records.cells.size

/-- The record that would be made next for a type. -/
def nextRecord (type : EntityType) : Handle := ⟨type, c.records.cells.size⟩

variable {c} in
/-- A record is found under a key if it is in the slot of the key and of the right type. -/
theorem find?_eq_some {side : Side} {type : EntityType} {key : String} {h : Handle} :
    c.memo.find? side type key = some h ↔
      c.recordAt? (Memo.slot side type key) = some h ∧ h.type = type := by
  simp [Memo.find?, recordAt?, Option.filter_eq_some_iff]

/-- What is found under a key depends on what is in its slot. -/
theorem find?_congr {c c' : Cache α} {side : Side} {type : EntityType} {key : String}
    (h : c'.recordAt? (Memo.slot side type key) = c.recordAt? (Memo.slot side type key)) :
    c'.memo.find? side type key = c.memo.find? side type key := by
  change (c'.recordAt? _).filter _ = (c.recordAt? _).filter _
  rw [h]

/-- Nothing is found in a vacant slot. -/
theorem find?_eq_none_of_recordAt? {c : Cache α} {side : Side} {type : EntityType} {key : String}
    (h : c.recordAt? (Memo.slot side type key) = none) : c.memo.find? side type key = none := by
  change (c.recordAt? _).filter _ = none
  rw [h, Option.filter_none]

/-- Every slot holds a record that exists and is of a type of the slot's kind. -/
structure Sound : Prop where
  has : ∀ {s h}, c.recordAt? s = some h → c.Has h
  kind_eq : ∀ {s h}, c.recordAt? s = some h → h.type.kind = s.kind

/-- The empty cache is sound. -/
theorem sound_empty : (empty : Cache α).Sound :=
  ⟨fun hs => by simp [recordAt?, empty, Memo.empty] at hs,
    fun hs => by simp [recordAt?, empty, Memo.empty] at hs⟩

/-! ### Filling -/

@[simp]
theorem recordAt?_fill (h : Handle) (e : α) (s : Slot) :
    (c.fill h e).recordAt? s = c.recordAt? s := rfl

variable {c} in
/-- Filling a record changes the entity of that record alone. -/
theorem entity?_fill {h : Handle} (hh : c.Has h) (e : α) (k : Handle) :
    (c.fill h e).entity? k = if k.place = h.place then some e else c.entity? k :=
  Records.value?_fill c.records hh e k

@[simp]
theorem has_fill (h : Handle) (e : α) (k : Handle) : (c.fill h e).Has k ↔ c.Has k := by
  simp [Has, fill]

theorem Sound.fill {c : Cache α} (hc : c.Sound) (h : Handle) (e : α) : (c.fill h e).Sound :=
  ⟨fun hs => (c.has_fill h e _).mpr (hc.has hs), fun hs => hc.kind_eq hs⟩

/-! ### Changing an entity -/

/-- Changes the entity in a record of a cache. A placeholder stays one. -/
def modify (h : Handle) (f : α → α) (c : Cache α) : Cache α :=
  { c with records := c.records.modify h f }

@[simp]
theorem recordAt?_modify (h : Handle) (f : α → α) (s : Slot) :
    (c.modify h f).recordAt? s = c.recordAt? s := rfl

/-- Changing the entity in a record changes no other. -/
theorem entity?_modify (h : Handle) (f : α → α) (k : Handle) :
    (c.modify h f).entity? k =
      if k.place = h.place then (c.entity? k).map f else c.entity? k :=
  Records.value?_modify c.records h f k

@[simp]
theorem has_modify (h : Handle) (f : α → α) (k : Handle) : (c.modify h f).Has k ↔ c.Has k := by
  simp [Has, modify]

/-! ### Vacating -/

/-- Vacating the slot of a key changes that slot alone. -/
theorem recordAt?_evict (side : Side) (type : EntityType) (key : String) (s : Slot) :
    (c.evict side type key).recordAt? s =
      if s = Memo.slot side type key then none else c.recordAt? s :=
  Keyed.find?_erase c.memo.slots _ s

theorem find?_evict (side : Side) (type : EntityType) (key key' : String) :
    (c.evict side type key).memo.find? side type key' =
      if key' = key then none else c.memo.find? side type key' := by
  have hslot := c.recordAt?_evict side type key (Memo.slot side type key')
  simp only [Memo.slot_inj] at hslot
  split_ifs at hslot ⊢
  · exact find?_eq_none_of_recordAt? hslot
  · exact find?_congr hslot

@[simp]
theorem entity?_evict (side : Side) (type : EntityType) (key : String) (h : Handle) :
    (c.evict side type key).entity? h = c.entity? h := rfl

@[simp]
theorem has_evict (side : Side) (type : EntityType) (key : String) (h : Handle) :
    (c.evict side type key).Has h ↔ c.Has h := Iff.rfl

/-- Vacating a slot of the record in it changes that slot alone, and only if it holds the
record. -/
theorem recordAt?_evictRecord (side : Side) (key : String) (h : Handle) (s : Slot) :
    (c.evictRecord side key h).recordAt? s =
      if s = Memo.slot side h.type key ∧ c.recordAt? s = some h then none
      else c.recordAt? s := by
  unfold evictRecord Memo.evictRecord recordAt?
  by_cases hheld : c.memo.slots.find? (Memo.slot side h.type key) = some h
  · rw [if_pos hheld]
    by_cases hs : s = Memo.slot side h.type key
    · simp [hs, hheld, Memo.evict]
    · simp [hs, Memo.evict, Keyed.find?_erase]
  · rw [if_neg hheld]
    by_cases hs : s = Memo.slot side h.type key
    · simp [hs, hheld]
    · simp [hs]

theorem find?_evictRecord (side : Side) (key : String) (h : Handle) (key' : String) :
    (c.evictRecord side key h).memo.find? side h.type key' =
      if key' = key ∧ c.memo.find? side h.type key' = some h then none
      else c.memo.find? side h.type key' := by
  have hslot := c.recordAt?_evictRecord side key h (Memo.slot side h.type key')
  have hheld : c.memo.find? side h.type key' = some h ↔
      c.recordAt? (Memo.slot side h.type key') = some h := by simp [find?_eq_some]
  simp only [Memo.slot_inj, ← hheld] at hslot
  split_ifs at hslot ⊢
  · exact find?_eq_none_of_recordAt? hslot
  · exact find?_congr hslot

@[simp]
theorem entity?_evictRecord (side : Side) (key : String) (h k : Handle) :
    (c.evictRecord side key h).entity? k = c.entity? k := rfl

@[simp]
theorem has_evictRecord (side : Side) (key : String) (h k : Handle) :
    (c.evictRecord side key h).Has k ↔ c.Has k := Iff.rfl

/-- Flushing vacates exactly the slots of the side. -/
theorem recordAt?_flush (side : Side) (s : Slot) :
    (c.flush side).recordAt? s = if s.side = side then none else c.recordAt? s := by
  unfold flush Memo.flush recordAt?
  rw [Keyed.find?_keep]
  by_cases hs : s.side = side <;> simp [hs]

@[simp]
theorem entity?_flush (side : Side) (h : Handle) : (c.flush side).entity? h = c.entity? h := rfl

@[simp]
theorem has_flush (side : Side) (h : Handle) : (c.flush side).Has h ↔ c.Has h := Iff.rfl

/-! ### Reserving -/

variable (side : Side) (type : EntityType) (key : String)

/-- The reservation is fresh exactly when nothing was found under the key. -/
theorem fresh_reserve :
    (c.reserve side type key).1.fresh = (c.memo.find? side type key).isNone := by
  unfold reserve
  cases c.memo.find? side type key <;> rfl

/-- The reserved record is the one found under the key, or else a new one. -/
theorem record_reserve :
    (c.reserve side type key).1.record = (c.memo.find? side type key).getD (c.nextRecord type) := by
  unfold reserve
  cases c.memo.find? side type key <;> rfl

/-- Reserving a slot in which a record is found changes nothing. -/
theorem reserve_of_some {h : Handle} (hfound : c.memo.find? side type key = some h) :
    c.reserve side type key = (⟨h, false⟩, c) := by
  simp [reserve, hfound]

/-- Reserving puts the reserved record into the slot of the key and leaves the other slots. -/
theorem recordAt?_reserve (s : Slot) :
    (c.reserve side type key).2.recordAt? s =
      if s = Memo.slot side type key then some (c.reserve side type key).1.record
      else c.recordAt? s := by
  unfold reserve
  split
  · rename_i h hfound
    obtain ⟨hslot, -⟩ := find?_eq_some.mp hfound
    split_ifs with hs
    · rw [hs, hslot]
    · rfl
  · exact Keyed.find?_put c.memo.slots _ s _

/-- Reserving gives no record an entity and takes none away. -/
@[simp]
theorem entity?_reserve (h : Handle) : (c.reserve side type key).2.entity? h = c.entity? h := by
  unfold reserve
  split
  · rfl
  · exact Records.value?_add_none c.records type h

variable {c} in
/-- Records outlast a reservation. -/
theorem Has.reserve {h : Handle} (hh : c.Has h) : (c.reserve side type key).2.Has h := by
  unfold Has Cache.reserve at *
  split
  · exact hh
  · simp only [Records.size_add]
    omega

/-- The reserved record is of the type that was asked for. -/
theorem type_reserve : (c.reserve side type key).1.record.type = type := by
  rw [record_reserve]
  cases hfound : c.memo.find? side type key with
  | some h => exact (find?_eq_some.mp hfound).2
  | none => rfl

theorem find?_reserve (key' : String) :
    (c.reserve side type key).2.memo.find? side type key' =
      if key' = key then some (c.reserve side type key).1.record
      else c.memo.find? side type key' := by
  have hslot := c.recordAt?_reserve side type key (Memo.slot side type key')
  simp only [Memo.slot_inj] at hslot
  split_ifs at hslot ⊢
  · exact find?_eq_some.mpr ⟨hslot, c.type_reserve side type key⟩
  · exact find?_congr hslot

variable {c} in
/-- The reserved record exists. -/
theorem Sound.has_reserved (hc : c.Sound) :
    (c.reserve side type key).2.Has (c.reserve side type key).1.record := by
  cases hfound : c.memo.find? side type key with
  | some h =>
    have hh := Has.reserve side type key (hc.has (find?_eq_some.mp hfound).1)
    rwa [record_reserve, hfound, Option.getD_some]
  | none =>
    rw [record_reserve, hfound]
    unfold Cache.reserve Has
    rw [hfound, Records.size_add]
    exact Nat.lt_succ_self _

variable {c} in
theorem Sound.reserve (hc : c.Sound) : (c.reserve side type key).2.Sound := by
  refine ⟨fun {s h} hs => ?_, fun {s h} hs => ?_⟩
  · rw [recordAt?_reserve] at hs
    split_ifs at hs with heq
    · cases hs
      exact hc.has_reserved side type key
    · exact Has.reserve side type key (hc.has hs)
  · rw [recordAt?_reserve] at hs
    split_ifs at hs with heq
    · cases hs
      rw [type_reserve, heq]
      rfl
    · exact hc.kind_eq hs

/-! ### Merging -/

variable (candidate : Option Handle) (e : α)

/-- The record that an entity is merged into: the one found under the key, or else the candidate,
or else a new one. -/
theorem fst_mergeInto :
    (c.mergeInto side type key candidate e).1 =
      (c.memo.find? side type key).getD (candidate.getD (c.nextRecord type)) := by
  unfold mergeInto settleSlot
  cases c.memo.find? side type key <;> cases candidate <;> rfl

variable {c candidate}

/-- A candidate for the slot of a key: a record of the type that exists. -/
def Admits (c : Cache α) (type : EntityType) (candidate : Option Handle) : Prop :=
  ∀ h ∈ candidate, h.type = type ∧ c.Has h

theorem admits_none : c.Admits type none := fun _ hh => by cases hh

theorem admits_some {h : Handle} (htype : h.type = type) (hh : c.Has h) :
    c.Admits type (some h) := fun k hk => by
  cases hk
  exact ⟨htype, hh⟩

/-- An entity is merged into a record of its type. -/
theorem type_mergeInto (hcand : c.Admits type candidate) :
    (c.mergeInto side type key candidate e).1.type = type := by
  rw [fst_mergeInto]
  cases hfound : c.memo.find? side type key with
  | some h => exact (find?_eq_some.mp hfound).2
  | none =>
    cases candidate with
    | some h => exact (hcand h rfl).1
    | none => rfl

/-- Merging puts the record of the entity into the slot of the key and leaves the other slots. -/
theorem recordAt?_mergeInto (hcand : c.Admits type candidate) (s : Slot) :
    (c.mergeInto side type key candidate e).2.recordAt? s =
      if s = Memo.slot side type key then some (c.mergeInto side type key candidate e).1
      else c.recordAt? s := by
  rw [fst_mergeInto]
  unfold mergeInto settleSlot
  cases hfound : c.memo.find? side type key with
  | some h =>
    obtain ⟨hslot, -⟩ := find?_eq_some.mp hfound
    split_ifs with hs
    · rw [hs]
      exact hslot
    · rfl
  | none =>
    cases candidate with
    | some h =>
      obtain ⟨rfl, -⟩ := hcand h rfl
      exact Keyed.find?_put c.memo.slots _ s h
    | none => exact Keyed.find?_put c.memo.slots _ s _

theorem find?_mergeInto (hcand : c.Admits type candidate) (key' : String) :
    (c.mergeInto side type key candidate e).2.memo.find? side type key' =
      if key' = key then some (c.mergeInto side type key candidate e).1
      else c.memo.find? side type key' := by
  have hslot := recordAt?_mergeInto side type key e hcand (Memo.slot side type key')
  simp only [Memo.slot_inj] at hslot
  split_ifs at hslot ⊢
  · exact find?_eq_some.mpr ⟨hslot, type_mergeInto side type key e hcand⟩
  · exact find?_congr hslot

/-- What is found under a key is found there after a merge, under whatever key. -/
theorem find?_mergeInto_of_some (hcand : c.Admits type candidate) {key' : String} {h : Handle}
    (hfound : c.memo.find? side type key' = some h) :
    (c.mergeInto side type key candidate e).2.memo.find? side type key' = some h := by
  rw [find?_mergeInto side type key e hcand]
  split_ifs with hkey
  · rw [fst_mergeInto, ← hkey, hfound, Option.getD_some]
  · exact hfound

/-- No candidate is needed where a record is found. -/
theorem mergeInto_of_some {h : Handle} (hfound : c.memo.find? side type key = some h) :
    c.mergeInto side type key candidate e = c.merge side type key e := by
  simp [merge, mergeInto, settleSlot, hfound]

/-- Records outlast a merge. -/
theorem Has.mergeInto {h : Handle} (hh : c.Has h) :
    (c.mergeInto side type key candidate e).2.Has h := by
  unfold Cache.mergeInto settleSlot
  cases c.memo.find? side type key with
  | some k => exact (has_fill c k e h).mpr hh
  | none =>
    cases candidate with
    | some k => exact (has_fill _ k e h).mpr hh
    | none =>
      refine (has_fill _ _ e h).mpr ?_
      unfold Has at hh ⊢
      rw [Records.size_add]
      omega

/-- The record that an entity is merged into exists. -/
theorem Sound.has_merged (hc : c.Sound) (hcand : c.Admits type candidate) :
    (c.mergeInto side type key candidate e).2.Has (c.mergeInto side type key candidate e).1 := by
  cases hfound : c.memo.find? side type key with
  | some h =>
    have hh : (c.mergeInto side type key candidate e).2.Has h :=
      Has.mergeInto side type key e (hc.has (find?_eq_some.mp hfound).1)
    rwa [fst_mergeInto, hfound, Option.getD_some]
  | none =>
    cases candidate with
    | some h =>
      have hh : (c.mergeInto side type key (some h) e).2.Has h :=
        Has.mergeInto side type key e (hcand h rfl).2
      rwa [fst_mergeInto, hfound, Option.getD_none, Option.getD_some]
    | none =>
      rw [fst_mergeInto, hfound]
      unfold mergeInto settleSlot
      rw [hfound]
      refine (has_fill _ _ e _).mpr ?_
      unfold Has
      rw [Records.size_add]
      exact Nat.lt_succ_self _

/-- Merging changes the entity of one record alone. -/
theorem entity?_mergeInto (hc : c.Sound) (hcand : c.Admits type candidate) (k : Handle) :
    (c.mergeInto side type key candidate e).2.entity? k =
      if k.place = (c.mergeInto side type key candidate e).1.place then some e
      else c.entity? k := by
  have hhas := hc.has_merged side type key e hcand
  unfold mergeInto at hhas ⊢
  rw [entity?_fill ((has_fill _ _ e _).mp hhas)]
  congr 1
  unfold settleSlot
  cases c.memo.find? side type key with
  | some h => rfl
  | none =>
    cases candidate with
    | some h => rfl
    | none => exact Records.value?_add_none c.records type k

theorem Sound.mergeInto (hc : c.Sound) (hcand : c.Admits type candidate) :
    (c.mergeInto side type key candidate e).2.Sound := by
  refine ⟨fun {s h} hs => ?_, fun {s h} hs => ?_⟩
  · rw [recordAt?_mergeInto side type key e hcand] at hs
    split_ifs at hs with heq
    · cases hs
      exact hc.has_merged side type key e hcand
    · exact Has.mergeInto side type key e (hc.has hs)
  · rw [recordAt?_mergeInto side type key e hcand] at hs
    split_ifs at hs with heq
    · cases hs
      rw [type_mergeInto side type key e hcand, heq]
      rfl
    · exact hc.kind_eq hs

end Cache

end Reconcile
