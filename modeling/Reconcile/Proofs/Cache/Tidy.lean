import Mathlib.Data.List.Nodup
import Reconcile.Proofs.Cache.Housed

/-!
# Records under their own keys

In a *tidy* cache every filled record is in the slot of its entity's key, and in no other slot.
This is what a run of calls keeps between its calls, but not what it keeps inside them: settling a
created entity moves a record to the slot of a new key, and the slot that it leaves may be the new
home of another record of the same call. What makes the moves safe is said of the records that
calls under way hold on to: a tidy cache is housed, with their stakes (`Cache.Tidy.housed`).

* **Merging** under an entity's own key keeps a cache tidy, if the candidate has its stake in the
  slot: `Cache.Tidy.mergeInto`.
* **Settling** uses up the stake of the record that it moves: `Crud.tidy_settle`. Whatever slots
  the other inputs' records are in, no case distinction on the keys of a batch is needed.
* **Reserving** adds a stake: `Cache.Tidy.reserve`, `Crud.tidy_reserveAll`.

All three put one record into one slot, so that the cache stays housed; what is left to say is that
the record has the key of the slot (`Cache.Tidy.of_put`). In a tidy cache without placeholders the
entries of a type list every key once: `Cache.entries_once`.
-/

namespace Reconcile

namespace Cache

variable {α : Type}

/-- Every filled record is in the slot of its entity's key, and in no other. The records of the
given stakes are in no slot but the stake's own. -/
structure Tidy (keyOf : EntityType → α → String) (stakes : List Stake) (c : Cache α) : Prop where
  sound : c.Sound
  keyed : ∀ {s h e}, c.recordAt? s = some h → c.entity? h = some e → keyOf h.type e = s.key
  single : ∀ {s s' h h'}, c.recordAt? s = some h → c.recordAt? s' = some h' →
    h.place = h'.place → s = s'
  has : ∀ x ∈ stakes, c.Has x.2
  home : ∀ x ∈ stakes, ∀ {s h}, c.recordAt? s = some h → h.place = x.2.place → s = x.1 ∧ h = x.2
  apart : stakes.Pairwise fun x y => x.2.place ≠ y.2.place

variable {keyOf : EntityType → α → String} {stakes : List Stake} {c c' : Cache α}

theorem entity?_nextRecord (c : Cache α) (type : EntityType) :
    c.entity? (c.nextRecord type) = none := by
  simp [entity?, nextRecord, Records.value?]

theorem Tidy.housed (ht : Tidy keyOf stakes c) : Housed stakes c :=
  ⟨ht.sound, ht.single, ht.has, ht.home, ht.apart⟩

/-- A housed cache is tidy if its filled records are in slots of their entities' keys. -/
theorem Housed.tidy (hc : Housed stakes c) (hkeyed : ∀ {s h e}, c.recordAt? s = some h →
    c.entity? h = some e → keyOf h.type e = s.key) : Tidy keyOf stakes c :=
  ⟨hc.sound, hkeyed, hc.single, hc.has, hc.home, hc.apart⟩

namespace Tidy

/-- The order of the stakes does not matter. -/
theorem perm {stakes' : List Stake} (ht : Tidy keyOf stakes c) (hperm : stakes.Perm stakes') :
    Tidy keyOf stakes' c :=
  (ht.housed.perm hperm).tidy ht.keyed

/-- A call may give up its stakes. -/
theorem sublist {stakes' : List Stake} (ht : Tidy keyOf stakes c) (hsub : stakes'.Sublist stakes) :
    Tidy keyOf stakes' c :=
  (ht.housed.sublist hsub).tidy ht.keyed

/-- Vacating slots keeps a cache tidy. -/
theorem of_vacated (ht : Tidy keyOf stakes c) (hrecords : c'.records = c.records)
    (hsub : ∀ {s h}, c'.recordAt? s = some h → c.recordAt? s = some h) : Tidy keyOf stakes c' :=
  (ht.housed.of_vacated hrecords hsub).tidy fun hs he =>
    ht.keyed (hsub hs) (by rwa [entity?, hrecords] at he)

theorem evict (ht : Tidy keyOf stakes c) (side : Side) (type : EntityType) (key : String) :
    Tidy keyOf stakes (c.evict side type key) :=
  ht.of_vacated rfl fun hs => by
    rw [recordAt?_evict] at hs
    split_ifs at hs
    exact hs

theorem evictRecord (ht : Tidy keyOf stakes c) (side : Side) (key : String) (h : Handle) :
    Tidy keyOf stakes (c.evictRecord side key h) :=
  ht.of_vacated rfl fun hs => by
    rw [recordAt?_evictRecord] at hs
    split_ifs at hs
    exact hs

theorem flush (ht : Tidy keyOf stakes c) (side : Side) : Tidy keyOf stakes (c.flush side) :=
  ht.of_vacated rfl fun hs => by
    rw [recordAt?_flush] at hs
    split_ifs at hs
    exact hs

/-- Changing an entity without changing its key keeps a cache tidy. -/
protected theorem modify (ht : Tidy keyOf stakes c) {k : Handle} {f : α → α}
    (hkey : ∀ e ∈ c.entity? k, ∀ type, keyOf type (f e) = keyOf type e) :
    Tidy keyOf stakes (c.modify k f) := by
  have hcalm := calm_modify ht.sound k f
  refine ⟨hcalm.sound, fun {s h e} hs he => ?_, ht.single, fun x hx => hcalm.has (ht.has x hx),
    ht.home, ht.apart⟩
  rw [entity?_modify] at he
  split_ifs at he with hplace
  · obtain ⟨e', he', rfl⟩ := Option.map_eq_some_iff.mp he
    have hsame : c.entity? k = c.entity? h := by
      unfold entity? Records.value?
      rw [hplace]
    rw [hkey e' (hsame.trans he') h.type]
    exact ht.keyed hs he'
  · exact ht.keyed hs he

/-! ### Putting a record into a slot -/

/-- A tidy cache stays tidy when a record is put into a slot, as long as the cache stays housed, if
the record's entity has the key of the slot and what is in another slot was there before, with the
same entity. -/
theorem of_put {stakes' : List Stake} (ht : Tidy keyOf stakes c) (hc' : Housed stakes' c')
    {s₀ : Slot} {h₀ : Handle} (hput : c'.recordAt? s₀ = some h₀)
    (hother : ∀ {s h}, s ≠ s₀ → c'.recordAt? s = some h →
      c.recordAt? s = some h ∧ c'.entity? h = c.entity? h)
    (hkey : ∀ {e}, c'.entity? h₀ = some e → keyOf h₀.type e = s₀.key) : Tidy keyOf stakes' c' := by
  refine hc'.tidy fun {s h e} hs he => ?_
  by_cases hslot : s = s₀
  · subst hslot
    obtain rfl := Option.some.inj (hput.symm.trans hs)
    exact hkey he
  · obtain ⟨hold, hsame⟩ := hother hslot hs
    exact ht.keyed hold (hsame ▸ he)

section Merge

variable {side : Side} {type : EntityType} {key : String} {candidate : Option Handle} {e : α}

/-- **Merging** an entity under its own key keeps a cache tidy, provided that the candidate is in no
slot but that of the key, where it may have its stake. -/
protected theorem mergeInto (ht : Tidy keyOf stakes c) (hkey : keyOf type e = key)
    (hcand : c.Admits type candidate)
    (hslot : ∀ p ∈ candidate, ∀ {s h}, c.recordAt? s = some h → h.place = p.place →
      s = Memo.slot side type key)
    (hstake : ∀ p ∈ candidate, ∀ x ∈ stakes, x.2.place = p.place →
      x.1 = Memo.slot side type key ∧ x.2 = p) :
    Tidy keyOf stakes (c.mergeInto side type key candidate e).2 := by
  obtain ⟨hfree, -⟩ := ht.housed.merged_home (e := e) hslot hstake
  have hput := recordAt?_mergeInto side type key e hcand
  have hentity := entity?_mergeInto side type key e ht.sound hcand
  have htype := type_mergeInto side type key e hcand
  refine ht.of_put (ht.housed.mergeInto hcand hslot hstake) ((hput _).trans (if_pos rfl))
    (fun {s h} hne hs => ?_) fun {e'} he => ?_
  · rw [hput, if_neg hne] at hs
    exact ⟨hs, (hentity h).trans (if_neg fun hplace => hne (hfree hs hplace))⟩
  · rw [hentity, if_pos rfl] at he
    rw [htype, ← Option.some.inj he]
    exact hkey

/-- Merging an entity under its own key, in the record that is there or in a new one. -/
protected theorem merge (ht : Tidy keyOf stakes c) (hkey : keyOf type e = key) :
    Tidy keyOf stakes (c.merge side type key e).2 :=
  ht.mergeInto hkey (admits_none type) nofun nofun

/-- Merging an entity under its own key, where the candidate has its stake in the slot. -/
theorem mergeInto_stake {p : Handle} (ht : Tidy keyOf ((Memo.slot side type key, p) :: stakes) c)
    (hkey : keyOf type e = key) (htype : p.type = type) :
    Tidy keyOf ((Memo.slot side type key, p) :: stakes)
      (c.mergeInto side type key (some p) e).2 :=
  have ⟨hcand, hslot, hstake⟩ := ht.housed.of_stake htype
  ht.mergeInto hkey hcand hslot hstake

end Merge

/-! ### Reserving -/

/-- A record that is in a slot may become a stake in it. -/
theorem stake_seated (ht : Tidy keyOf stakes c) {s : Slot} {h : Handle}
    (hs : c.recordAt? s = some h) (hapart : ∀ x ∈ stakes, h.place ≠ x.2.place) :
    Tidy keyOf ((s, h) :: stakes) c :=
  (ht.housed.stake_seated hs hapart).tidy ht.keyed

/-- **Reserving** a slot in which nothing was found adds a stake in it. -/
protected theorem reserve (ht : Tidy keyOf stakes c) (side : Side) (type : EntityType)
    (key : String) (hvacant : c.memo.find? side type key = none) :
    Tidy keyOf ((Memo.slot side type key, (c.reserve side type key).1.record) :: stakes)
      (c.reserve side type key).2 := by
  have hput := c.recordAt?_reserve side type key
  refine ht.of_put (ht.housed.reserve side type key hvacant) ((hput _).trans (if_pos rfl))
    (fun {s h} hne hs => ?_) fun {e} he => ?_
  · rw [hput, if_neg hne] at hs
    exact ⟨hs, c.entity?_reserve side type key h⟩
  · -- the new record is empty
    rw [entity?_reserve, record_reserve, hvacant, Option.getD_none, entity?_nextRecord] at he
    cases he

end Tidy

/-! ### Entries -/

private theorem eraseDups_of_nodup {β : Type} [BEq β] [LawfulBEq β] {l : List β} (h : l.Nodup) :
    l.eraseDups = l := by
  induction l with
  | nil => rfl
  | cons b l ih =>
    obtain ⟨hnot, hrest⟩ := List.nodup_cons.mp h
    have hkept : (l.filter fun x => !x == b) = l := by
      refine List.filter_eq_self.mpr fun x hx => ?_
      simpa using fun heq : x = b => hnot (heq ▸ hx)
    rw [List.eraseDups_cons, hkept, ih hrest]

/-- When every slot holds a filled record, and no record is in two slots, the entries of a type are
what its keys are found to hold, key by key. -/
theorem entries_once (hsingle : ∀ {s s' h h'}, c.recordAt? s = some h → c.recordAt? s' = some h' →
      h.place = h'.place → s = s')
    (hfilled : ∀ {s h}, c.recordAt? s = some h → c.entity? h ≠ none) (side : Side)
    (type : EntityType) :
    ∃ keys : List String, keys.Nodup ∧
      (∀ key, key ∈ keys ↔ (c.memo.find? side type key).isSome) ∧
      (c.entries side type).map some = keys.map (c.memo.find? side type) := by
  -- the slots of the type, each with its record
  let held := c.memo.slots.pairs.filter fun x =>
    decide (x.2.type = type) && (decide (x.1.side = side) && decide (x.1.kind = type.kind))
  have hmem : ∀ {x : Slot × Handle}, x ∈ held ↔ c.recordAt? x.1 = some x.2 ∧ x.2.type = type ∧
      x.1 = Memo.slot side type x.1.key := by
    rintro ⟨⟨side', kind, key⟩, h⟩
    simp [held, recordAt?, Keyed.find?_eq_some_iff, Memo.slot]
  have hdistinct : (held.map Prod.fst).Nodup :=
    c.memo.slots.distinct.sublist (List.filter_sublist.map _)
  have hrecords : (held.map Prod.snd).Nodup := by
    refine List.Nodup.map_on (fun x hx y hy heq => ?_) hdistinct.of_map
    have hslot := hsingle (hmem.mp hx).1 (hmem.mp hy).1 (congrArg Handle.place heq)
    exact Prod.ext hslot heq
  have hentries : c.entries side type = held.map Prod.snd := by
    have hlisted : c.memo.recordsOf side type = held.map Prod.snd := by
      unfold Memo.recordsOf Keyed.values Keyed.keep
      simp only [List.filter_map, List.filter_filter, Function.comp_def]
      exact eraseDups_of_nodup hrecords
    rw [entries, hlisted, List.filter_eq_self]
    intro h hh
    obtain ⟨x, hx, rfl⟩ := List.mem_map.mp hh
    have hvalue : c.records.value? x.2 ≠ none := hfilled (hmem.mp hx).1
    simpa [Records.isPlaceholder, Option.isSome_iff_ne_none] using hvalue
  refine ⟨held.map fun x => x.1.key, ?_, fun key => ?_, ?_⟩
  · refine List.Nodup.map_on (fun x hx y hy heq => ?_) hdistinct.of_map
    have hslot : x.1 = y.1 := by rw [(hmem.mp hx).2.2, (hmem.mp hy).2.2, heq]
    have hsame : some x.2 = some y.2 := by rw [← (hmem.mp hx).1, ← (hmem.mp hy).1, hslot]
    exact Prod.ext hslot (Option.some.inj hsame)
  · rw [List.mem_map, Option.isSome_iff_exists]
    constructor
    · rintro ⟨x, hx, rfl⟩
      obtain ⟨hs, htype, hslot⟩ := hmem.mp hx
      exact ⟨x.2, find?_eq_some.mpr ⟨hslot ▸ hs, htype⟩⟩
    · rintro ⟨h, hh⟩
      obtain ⟨hs, htype⟩ := find?_eq_some.mp hh
      exact ⟨(Memo.slot side type key, h), hmem.mpr ⟨hs, htype, rfl⟩, rfl⟩
  · rw [hentries, List.map_map, List.map_map]
    refine List.map_congr_left fun x hx => ?_
    obtain ⟨hs, htype, hslot⟩ := hmem.mp hx
    exact (find?_eq_some.mpr ⟨hslot ▸ hs, htype⟩).symm

end Cache

namespace Crud

open Cache

variable {α : Type} {keyOf : EntityType → α → String} {stakes : List Stake} {crud : Crud α}
  {c : Cache α}

/-- The stake of a reservation. -/
def stakeOf (crud : Crud α) (r : Reserved) : Stake :=
  (Memo.slot crud.side crud.type r.key, r.record)

/-- Reserving slots for inputs of pairwise distinct keys adds a stake for each of them, as long as
the stakes that there are lie in other slots. -/
theorem tidy_reserveAll (hkeyOf : crud.keyOf = keyOf crud.type) (es : List α)
    (hdistinct : (es.map crud.keyOf).Nodup) (ht : Tidy keyOf stakes c)
    (hseated : ∀ x ∈ stakes, c.recordAt? x.1 = some x.2)
    (hnew : ∀ e ∈ es, ∀ x ∈ stakes, x.1 ≠ Memo.slot crud.side crud.type (crud.keyOf e)) :
    Tidy keyOf ((crud.reserveAll es c).1.map crud.stakeOf ++ stakes) (crud.reserveAll es c).2 := by
  induction es generalizing stakes c with
  | nil => exact ht
  | cons e es ih =>
    obtain ⟨hfirst, hdistinct⟩ := List.nodup_cons.mp hdistinct
    obtain ⟨hnewFirst, hnew⟩ := List.forall_mem_cons.mp hnew
    -- once the slot holds its record, that record becomes a stake and the rest follows
    have hrest : ∀ {h : Handle} {c : Cache α}, Tidy keyOf stakes c →
        (∀ x ∈ stakes, c.recordAt? x.1 = some x.2) →
        c.recordAt? (Memo.slot crud.side crud.type (crud.keyOf e)) = some h →
        Tidy keyOf ((Memo.slot crud.side crud.type (crud.keyOf e), h) ::
          ((crud.reserveAll es c).1.map crud.stakeOf ++ stakes)) (crud.reserveAll es c).2 := by
      intro h c ht hseated hs
      have hstake := ht.stake_seated hs fun x hx hplace =>
        hnewFirst x hx (ht.single (hseated x hx) hs hplace.symm)
      refine (ih hdistinct hstake (List.forall_mem_cons.mpr ⟨hs, hseated⟩) fun e' he' =>
        List.forall_mem_cons.mpr ⟨fun heq => ?_, hnew e' he'⟩).perm List.perm_middle
      exact hfirst (List.mem_map.mpr ⟨e', he', (Memo.slot_inj.mp heq).symm⟩)
    cases hfound : c.memo.find? crud.side crud.type (crud.keyOf e) with
    | some h =>
      rw [reserveAll_cons_of_some crud hfound]
      exact hrest ht hseated (find?_eq_some.mp hfound).1
    | none =>
      have hmerge := recordAt?_mergeInto crud.side crud.type (crud.keyOf e) e
        (admits_none (c := c) crud.type)
      rw [reserveAll_cons_of_none crud hfound]
      refine hrest (ht.merge (congrFun hkeyOf e).symm) (fun x hx => ?_) ?_
      · exact (hmerge x.1).trans ((if_neg (hnewFirst x hx)).trans (hseated x hx))
      · exact (hmerge _).trans (if_pos rfl)

/-- Without stakes, slots may be reserved for inputs of any keys: each input is put under its
own. -/
theorem tidy_reserveAll_idle (hkeyOf : crud.keyOf = keyOf crud.type) (es : List α)
    (ht : Tidy keyOf [] c) : Tidy keyOf [] (crud.reserveAll es c).2 := by
  induction es generalizing c with
  | nil => exact ht
  | cons e es ih =>
    cases hfound : c.memo.find? crud.side crud.type (crud.keyOf e) with
    | some h =>
      rw [reserveAll_cons_of_some crud hfound]
      exact ih ht
    | none =>
      rw [reserveAll_cons_of_none crud hfound]
      exact ih (ht.merge (congrFun hkeyOf e).symm)

/-- **Settling** an entity uses up the stake of the record reserved for it, in whatever slots the
entity's new key and the records of the other stakes lie. -/
theorem tidy_settle (hkeyOf : crud.keyOf = keyOf crud.type) {r : Reserved}
    (ht : Tidy keyOf (crud.stakeOf r :: stakes) c) (htype : r.record.type = crud.type) (e : α) :
    Tidy keyOf stakes (crud.settle r e c).2 := by
  have hr : crud.Holds c r := ⟨htype, ht.has _ List.mem_cons_self⟩
  have hentity := entity?_settle crud e ht.sound hr
  refine ht.of_put (housed_settle ht.housed htype e)
    ((recordAt?_settle crud e ht.sound hr _).trans (if_pos rfl)) (fun {s h} hne hs => ?_)
    fun {e'} he => ?_
  · obtain ⟨hold, hheld, hreserved⟩ := settle_apart ht.housed htype e hne hs
    exact ⟨hold, (hentity h).trans (if_neg fun hor => hor.elim hheld fun hand => hreserved hand.2)⟩
  · rw [hentity, if_pos (Or.inl rfl)] at he
    rw [type_settle crud e hr, ← hkeyOf, ← Option.some.inj he]
    rfl

/-- Settling a batch uses up the stakes of its reservations. An answer that is too short gives up
those that are left. -/
theorem tidy_settleAll (hkeyOf : crud.keyOf = keyOf crud.type) (rs : List Reserved) (es : List α)
    (ht : Tidy keyOf (rs.map crud.stakeOf ++ stakes) c)
    (htypes : ∀ r ∈ rs, r.record.type = crud.type) :
    Tidy keyOf stakes (crud.settleAll rs es c).2 := by
  induction rs generalizing es c with
  | nil => cases es <;> exact ht
  | cons r rs ih =>
    obtain ⟨htype, htypes⟩ := List.forall_mem_cons.mp htypes
    cases es with
    | nil => exact ht.sublist (List.sublist_append_right _ _)
    | cons e es => exact ih es (tidy_settle hkeyOf ht htype e) htypes

theorem tidy_mergeAll (hkeyOf : crud.keyOf = keyOf crud.type) (es : List α)
    (ht : Tidy keyOf stakes c) : Tidy keyOf stakes (crud.mergeAll es c).2 := by
  induction es generalizing c with
  | nil => exact ht
  | cons e es ih => exact ih (ht.merge (congrFun hkeyOf e).symm)

theorem tidy_finishCreate (hkeyOf : crud.keyOf = keyOf crud.type) (rs : List Reserved)
    (es : List α) (ht : Tidy keyOf (rs.map crud.stakeOf ++ stakes) c)
    (htypes : ∀ r ∈ rs, r.record.type = crud.type) :
    Tidy keyOf stakes (crud.finishCreate rs es c).2 := by
  have hgivenUp := ht.sublist (List.sublist_append_right _ _)
  unfold finishCreate
  split_ifs
  · exact hgivenUp
  · exact tidy_settleAll hkeyOf rs es ht htypes
  · exact tidy_mergeAll hkeyOf es hgivenUp

theorem tidy_rollBack (rs : List Reserved) (ht : Tidy keyOf stakes c) :
    Tidy keyOf stakes (crud.rollBack rs c) := by
  induction rs generalizing c with
  | nil => exact ht
  | cons r rs ih =>
    unfold rollBack
    rw [List.foldl_cons]
    split_ifs
    · exact ih (ht.evictRecord crud.side r.key r.record)
    · exact ih ht

theorem tidy_evictAll (keys : List String) (ht : Tidy keyOf stakes c) :
    Tidy keyOf stakes (crud.evictAll keys c) := by
  induction keys generalizing c with
  | nil => exact ht
  | cons key keys ih => exact ih (ht.evict crud.side crud.type key)

/-! ### Reading -/

section Read

variable {key : String} {p : Handle}

/-- What a read finds is merged beside its stake, or into it. -/
theorem tidy_sight (hkeyOf : crud.keyOf = keyOf crud.type) (found : List α) (seen : Sighting)
    (ht : Tidy keyOf ((Memo.slot crud.side crud.type key, p) :: stakes) c)
    (htype : p.type = crud.type) :
    Tidy keyOf ((Memo.slot crud.side crud.type key, p) :: stakes)
      (crud.sight key p found seen c).2 := by
  induction found generalizing seen c with
  | nil => exact ht
  | cons e es ih =>
    have hkey : keyOf crud.type e = crud.keyOf e := (congrFun hkeyOf e).symm
    unfold sight
    simp only
    -- only an entity of the key that was asked for may go into the placeholder
    split_ifs with hsame
    · exact ih _ (ht.mergeInto_stake (hkey.trans hsame) htype)
    · exact ih _ (ht.merge hkey)

/-- A read that ends gives up its stake. -/
theorem tidy_finishRead (hkeyOf : crud.keyOf = keyOf crud.type) (found : List α)
    (ht : Tidy keyOf ((Memo.slot crud.side crud.type key, p) :: stakes) c)
    (htype : p.type = crud.type) : Tidy keyOf stakes (crud.finishRead key p found c).2 := by
  have hsight := (tidy_sight hkeyOf found ⟨none, none⟩ ht htype).sublist
    (List.sublist_cons_self _ _)
  unfold finishRead
  simp only
  split
  · exact hsight
  · exact hsight.evictRecord crud.side key p

end Read

end Crud

end Reconcile
