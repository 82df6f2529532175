import Reconcile.Proofs.Cache.Phases

/-!
# No record is in two slots

In a *housed* cache every record is in at most one slot. Reads and listings keep it so, whatever
they find and whatever the keys of the entities in the slots are. A read that is under way will put
its placeholder into a slot once more, and must not find it in another one by then. So it is said of
the records that calls hold on to as well: a **stake** is a slot with a record that a call may still
put into a slot, the record of a stake is in no slot but the stake's own, and the records of two
stakes are distinct (`Cache.Housed`).

* **Merging** keeps a cache housed, if the candidate has its stake in the slot:
  `Cache.Housed.mergeInto`.
* **Reserving** adds a stake: `Cache.Housed.reserve`. Without stakes, slots may be reserved for
  inputs of any keys: `Crud.housed_reserveAll`.
* **Settling** uses up the stake of the record that it moves: `Crud.housed_settle`.

All three put one record into one slot, and `Cache.Housed.of_put` says once what such a change has
to respect.
-/

namespace Reconcile

/-- A slot and a record that a call under way may still put into a slot. -/
abbrev Stake := Slot × Handle

namespace Cache

variable {α : Type}

/-- No record is in two slots, and the records of the given stakes are in no slot but the stake's
own. -/
structure Housed (stakes : List Stake) (c : Cache α) : Prop where
  sound : c.Sound
  single : ∀ {s s' h h'}, c.recordAt? s = some h → c.recordAt? s' = some h' →
    h.place = h'.place → s = s'
  has : ∀ x ∈ stakes, c.Has x.2
  home : ∀ x ∈ stakes, ∀ {s h}, c.recordAt? s = some h → h.place = x.2.place → s = x.1 ∧ h = x.2
  apart : stakes.Pairwise fun x y => x.2.place ≠ y.2.place

namespace Housed

variable {stakes : List Stake} {c c' : Cache α}

/-- Without stakes, a sound cache is housed if no record is in two slots. -/
theorem of_single (hc : c.Sound) (hsingle : ∀ {s s' h h'}, c.recordAt? s = some h →
    c.recordAt? s' = some h' → h.place = h'.place → s = s') : Housed [] c :=
  ⟨hc, hsingle, fun _ hx => absurd hx List.not_mem_nil, fun _ hx => absurd hx List.not_mem_nil,
    List.Pairwise.nil⟩

/-- The order of the stakes does not matter. -/
theorem perm {stakes' : List Stake} (hc : Housed stakes c) (hperm : stakes.Perm stakes') :
    Housed stakes' c where
  sound := hc.sound
  single := hc.single
  has x hx := hc.has x (hperm.mem_iff.mpr hx)
  home x hx := hc.home x (hperm.mem_iff.mpr hx)
  apart := (hperm.pairwise_iff fun h => h.symm).mp hc.apart

/-- A call may give up its stakes. -/
theorem sublist {stakes' : List Stake} (hc : Housed stakes c) (hsub : stakes'.Sublist stakes) :
    Housed stakes' c where
  sound := hc.sound
  single := hc.single
  has x hx := hc.has x (hsub.subset hx)
  home x hx := hc.home x (hsub.subset hx)
  apart := hc.apart.sublist hsub

/-- Records that are found under two keys are distinct. -/
theorem find?_inj (hc : Housed stakes c) {side : Side} {type : EntityType} {key key' : String}
    {h h' : Handle} (hh : c.memo.find? side type key = some h)
    (hh' : c.memo.find? side type key' = some h') (hplace : h.place = h'.place) : key = key' :=
  Memo.slot_inj.mp (hc.single (find?_eq_some.mp hh).1 (find?_eq_some.mp hh').1 hplace)

/-- Vacating slots keeps a cache housed. -/
theorem of_vacated (hc : Housed stakes c) (hrecords : c'.records = c.records)
    (hsub : ∀ {s h}, c'.recordAt? s = some h → c.recordAt? s = some h) : Housed stakes c' where
  sound := (Calm.of_vacated hc.sound hrecords hsub).sound
  single hs hs' hplace := hc.single (hsub hs) (hsub hs') hplace
  has x hx := (Calm.of_vacated hc.sound hrecords hsub).has (hc.has x hx)
  home x hx _ _ hs hplace := hc.home x hx (hsub hs) hplace
  apart := hc.apart

theorem evictRecord (hc : Housed stakes c) (side : Side) (key : String) (h : Handle) :
    Housed stakes (c.evictRecord side key h) :=
  hc.of_vacated rfl fun hs => by
    rw [recordAt?_evictRecord] at hs
    split_ifs at hs
    exact hs

/-! ### Putting a record into a slot -/

/-- What all changes of a housed cache have in common that put a record into a slot. The record has
left all other slots, and what is in another slot was there before. A stake may be new if it is the
record in its slot, and a stake on the record must be just that. -/
theorem of_put {stakes' : List Stake} (hc : Housed stakes c) (hsound : c'.Sound) {s₀ : Slot}
    {h₀ : Handle} (hput : c'.recordAt? s₀ = some h₀)
    (hother : ∀ {s h}, s ≠ s₀ → c'.recordAt? s = some h →
      c.recordAt? s = some h ∧ h.place ≠ h₀.place)
    (hstakes : ∀ x ∈ stakes', x = (s₀, h₀) ∨ x ∈ stakes) (hhas : ∀ x ∈ stakes', c'.Has x.2)
    (hhome : ∀ x ∈ stakes', x.2.place = h₀.place → x.1 = s₀ ∧ x.2 = h₀)
    (hapart : stakes'.Pairwise fun x y => x.2.place ≠ y.2.place) : Housed stakes' c' := by
  have hthis : ∀ {h}, c'.recordAt? s₀ = some h → h = h₀ := fun {h} hs => by
    rw [hput] at hs
    exact (Option.some.inj hs).symm
  refine ⟨hsound, fun {s s' h h'} hs hs' hplace => ?_, hhas, fun x hx {s h} hs hplace => ?_,
    hapart⟩
  · -- two slots can only hold one record if neither is the slot of the put
    by_cases hslot : s = s₀ <;> by_cases hslot' : s' = s₀
    · rw [hslot, hslot']
    · subst hslot
      obtain rfl := hthis hs
      exact absurd hplace.symm (hother hslot' hs').2
    · subst hslot'
      obtain rfl := hthis hs'
      exact absurd hplace (hother hslot hs).2
    · exact hc.single (hother hslot hs).1 (hother hslot' hs').1 hplace
  · by_cases hslot : s = s₀
    · subst hslot
      obtain rfl := hthis hs
      obtain ⟨hx₁, hx₂⟩ := hhome x hx hplace.symm
      exact ⟨hx₁.symm, hx₂.symm⟩
    · obtain ⟨hold, hne⟩ := hother hslot hs
      rcases hstakes x hx with rfl | hx
      · exact absurd hplace hne
      · exact hc.home x hx hold hplace

/-! ### Merging -/

section Merge

variable {side : Side} {type : EntityType} {key : String} {candidate : Option Handle} {e : α}

/-- The record that an entity is merged into is in no slot but that of the key, and a stake on it
is a stake in that slot. -/
theorem merged_home (hc : Housed stakes c)
    (hslot : ∀ p ∈ candidate, ∀ {s h}, c.recordAt? s = some h → h.place = p.place →
      s = Memo.slot side type key)
    (hstake : ∀ p ∈ candidate, ∀ x ∈ stakes, x.2.place = p.place →
      x.1 = Memo.slot side type key ∧ x.2 = p) :
    (∀ {s h}, c.recordAt? s = some h → h.place = (c.mergeInto side type key candidate e).1.place →
        s = Memo.slot side type key) ∧
      ∀ x ∈ stakes, x.2.place = (c.mergeInto side type key candidate e).1.place →
        x.1 = Memo.slot side type key ∧ x.2 = (c.mergeInto side type key candidate e).1 := by
  rw [fst_mergeInto]
  cases hfound : c.memo.find? side type key with
  | some k =>
    obtain ⟨hk, -⟩ := find?_eq_some.mp hfound
    refine ⟨fun hs hplace => hc.single hs hk hplace, fun x hx hplace => ?_⟩
    obtain ⟨hx₁, hx₂⟩ := hc.home x hx hk hplace.symm
    exact ⟨hx₁.symm, hx₂.symm⟩
  | none =>
    cases candidate with
    | some p => exact ⟨hslot p rfl, hstake p rfl⟩
    | none =>
      -- a new record is in no slot and nobody's stake
      refine ⟨fun hs hplace => ?_, fun x hx hplace => ?_⟩
      · exact absurd (hc.sound.has hs) (Nat.not_lt.mpr (Nat.le_of_eq hplace.symm))
      · exact absurd (hc.has x hx) (Nat.not_lt.mpr (Nat.le_of_eq hplace.symm))

/-- **Merging** keeps a cache housed, provided that the candidate is in no slot but that of the key,
where it may have its stake. -/
protected theorem mergeInto (hc : Housed stakes c) (hcand : c.Admits type candidate)
    (hslot : ∀ p ∈ candidate, ∀ {s h}, c.recordAt? s = some h → h.place = p.place →
      s = Memo.slot side type key)
    (hstake : ∀ p ∈ candidate, ∀ x ∈ stakes, x.2.place = p.place →
      x.1 = Memo.slot side type key ∧ x.2 = p) :
    Housed stakes (c.mergeInto side type key candidate e).2 := by
  obtain ⟨hfree, hstaked⟩ := hc.merged_home (e := e) hslot hstake
  have hput := recordAt?_mergeInto side type key e hcand
  refine hc.of_put (hc.sound.mergeInto side type key e hcand) ((hput _).trans (if_pos rfl))
    (fun {s h} hne hs => ?_) (fun x hx => Or.inr hx)
    (fun x hx => (hc.has x hx).mergeInto side type key e) hstaked hc.apart
  rw [hput, if_neg hne] at hs
  exact ⟨hs, fun hplace => hne (hfree hs hplace)⟩

/-- Merging in the record that is there or in a new one. -/
protected theorem merge (hc : Housed stakes c) : Housed stakes (c.merge side type key e).2 :=
  hc.mergeInto (admits_none type) nofun nofun

/-- A candidate with its stake in the slot may be merged into. -/
theorem of_stake {p : Handle} (hc : Housed ((Memo.slot side type key, p) :: stakes) c)
    (htype : p.type = type) :
    c.Admits type (some p) ∧
      (∀ k ∈ some p, ∀ {s h}, c.recordAt? s = some h → h.place = k.place →
        s = Memo.slot side type key) ∧
      ∀ k ∈ some p, ∀ x ∈ (Memo.slot side type key, p) :: stakes, x.2.place = k.place →
        x.1 = Memo.slot side type key ∧ x.2 = k := by
  have hhead := List.mem_cons_self (a := (Memo.slot side type key, p)) (l := stakes)
  refine ⟨admits_some type htype (hc.has _ hhead), fun k hk => ?_, fun k hk x hx hplace => ?_⟩
  · cases hk
    exact fun hs hplace => (hc.home _ hhead hs hplace).1
  · cases hk
    rcases List.mem_cons.mp hx with rfl | hx
    · exact ⟨rfl, rfl⟩
    · exact absurd hplace.symm ((List.pairwise_cons.mp hc.apart).1 x hx)

/-- Merging where the candidate has its stake in the slot. -/
theorem mergeInto_stake {p : Handle} (hc : Housed ((Memo.slot side type key, p) :: stakes) c)
    (htype : p.type = type) :
    Housed ((Memo.slot side type key, p) :: stakes) (c.mergeInto side type key (some p) e).2 :=
  have ⟨hcand, hslot, hstake⟩ := hc.of_stake htype
  hc.mergeInto hcand hslot hstake

end Merge

/-! ### Reserving -/

/-- A record that is in a slot may become a stake in it. -/
theorem stake_seated (hc : Housed stakes c) {s : Slot} {h : Handle}
    (hs : c.recordAt? s = some h) (hapart : ∀ x ∈ stakes, h.place ≠ x.2.place) :
    Housed ((s, h) :: stakes) c where
  sound := hc.sound
  single := hc.single
  has := List.forall_mem_cons.mpr ⟨hc.sound.has hs, hc.has⟩
  home := by
    refine List.forall_mem_cons.mpr ⟨fun {s' h'} hs' hplace => ?_, hc.home⟩
    obtain rfl := hc.single hs' hs hplace
    rw [hs] at hs'
    exact ⟨rfl, (Option.some.inj hs').symm⟩
  apart := List.pairwise_cons.mpr ⟨hapart, hc.apart⟩

/-- **Reserving** a slot in which nothing was found adds a stake in it. -/
protected theorem reserve (hc : Housed stakes c) (side : Side) (type : EntityType)
    (key : String) (hvacant : c.memo.find? side type key = none) :
    Housed ((Memo.slot side type key, (c.reserve side type key).1.record) :: stakes)
      (c.reserve side type key).2 := by
  have hnew : (c.reserve side type key).1.record = c.nextRecord type := by
    rw [record_reserve, hvacant, Option.getD_none]
  have hput := c.recordAt?_reserve side type key
  rw [hnew] at hput ⊢
  have hfresh : ∀ {h}, c.Has h → h.place ≠ (c.nextRecord type).place := fun hh => Nat.ne_of_lt hh
  have hhas := hc.sound.has_reserved side type key
  rw [hnew] at hhas
  refine hc.of_put (hc.sound.reserve side type key) ((hput _).trans (if_pos rfl))
    (fun {s h} hne hs => ?_) (fun x hx => List.mem_cons.mp hx)
    (List.forall_mem_cons.mpr ⟨hhas, fun x hx => (hc.has x hx).reserve side type key⟩)
    (List.forall_mem_cons.mpr ⟨fun _ => ⟨rfl, rfl⟩, fun x hx hplace => ?_⟩)
    (List.pairwise_cons.mpr ⟨fun x hx => (hfresh (hc.has x hx)).symm, hc.apart⟩)
  · rw [hput, if_neg hne] at hs
    exact ⟨hs, hfresh (hc.sound.has hs)⟩
  · exact absurd hplace (hfresh (hc.has x hx))

end Housed

end Cache

namespace Crud

open Cache

variable {α : Type} {stakes : List Stake} {crud : Crud α} {c : Cache α}

theorem housed_reserveAll (es : List α) (hc : Housed [] c) :
    Housed [] (crud.reserveAll es c).2 := by
  induction es generalizing c with
  | nil => exact hc
  | cons e es ih =>
    cases hfound : c.memo.find? crud.side crud.type (crud.keyOf e) with
    | some h =>
      rw [reserveAll_cons_of_some crud hfound]
      exact ih hc
    | none =>
      rw [reserveAll_cons_of_none crud hfound]
      exact ih hc.merge

theorem housed_mergeAll (es : List α) (hc : Housed stakes c) :
    Housed stakes (crud.mergeAll es c).2 := by
  induction es generalizing c with
  | nil => exact hc
  | cons e es ih => exact ih hc.merge

/-! ### Settling -/

section Settle

variable {r : Reserved}

/-- What settling an entity leaves in the slots of other keys was there before, and is neither the
entity's record nor the one that was reserved for it. -/
theorem settle_apart (hc : Housed ((Memo.slot crud.side crud.type r.key, r.record) :: stakes) c)
    (htype : r.record.type = crud.type) (e : α) {s : Slot} {h : Handle}
    (hne : s ≠ Memo.slot crud.side crud.type (crud.keyOf e))
    (hs : (crud.settle r e c).2.recordAt? s = some h) :
    c.recordAt? s = some h ∧ h.place ≠ (crud.settle r e c).1.place ∧
      h.place ≠ r.record.place := by
  have hhead := List.mem_cons_self (a := (Memo.slot crud.side crud.type r.key, r.record))
    (l := stakes)
  rw [recordAt?_settle crud e hc.sound ⟨htype, hc.has _ hhead⟩, if_neg hne] at hs
  split_ifs at hs with hleft
  -- the reserved record has left the slot that it was reserved in, or else that is the new slot
  have hreserved : h.place ≠ r.record.place := by
    intro hplace
    obtain ⟨hs', hh⟩ := hc.home _ hhead hs hplace
    exact hleft ⟨hs', hs.trans (congrArg some hh)⟩
  refine ⟨hs, ?_, hreserved⟩
  rw [fst_settle]
  cases hfound : c.memo.find? crud.side crud.type (crud.keyOf e) with
  | some k => exact fun hplace => hne (hc.single hs (find?_eq_some.mp hfound).1 hplace)
  | none => exact hreserved

/-- **Settling** an entity uses up the stake of the record reserved for it, in whatever slots the
entity's new key and the records of the other stakes lie. -/
theorem housed_settle (hc : Housed ((Memo.slot crud.side crud.type r.key, r.record) :: stakes) c)
    (htype : r.record.type = crud.type) (e : α) : Housed stakes (crud.settle r e c).2 := by
  have hhead := List.mem_cons_self (a := (Memo.slot crud.side crud.type r.key, r.record))
    (l := stakes)
  have hr : crud.Holds c r := ⟨htype, hc.has _ hhead⟩
  have hcalm := crud.calm_settle e hc.sound hr
  have hput := (recordAt?_settle crud e hc.sound hr _).trans (if_pos rfl)
  refine hc.of_put hcalm.sound hput
    (fun hne hs => ⟨(settle_apart hc htype e hne hs).1, (settle_apart hc htype e hne hs).2.1⟩)
    (fun x hx => Or.inr (List.mem_cons_of_mem _ hx))
    (fun x hx => hcalm.has (hc.has x (List.mem_cons_of_mem _ hx))) (fun x hx hplace => ?_)
    (List.pairwise_cons.mp hc.apart).2
  -- another stake on the entity's record lies in the slot where that record was found
  rw [fst_settle] at hplace ⊢
  cases hfound : c.memo.find? crud.side crud.type (crud.keyOf e) with
  | some k =>
    rw [hfound, Option.getD_some] at hplace
    obtain ⟨hx₁, hx₂⟩ :=
      hc.home x (List.mem_cons_of_mem _ hx) (find?_eq_some.mp hfound).1 hplace.symm
    exact ⟨hx₁.symm, hx₂.symm⟩
  | none =>
    rw [hfound, Option.getD_none] at hplace
    exact absurd hplace.symm ((List.pairwise_cons.mp hc.apart).1 x hx)

end Settle

/-! ### Reading -/

section Read

variable {key : String} {p : Handle}

/-- What a read finds is merged beside its stake, or into it. -/
theorem housed_sight (found : List α) (seen : Sighting)
    (hc : Housed ((Memo.slot crud.side crud.type key, p) :: stakes) c)
    (htype : p.type = crud.type) :
    Housed ((Memo.slot crud.side crud.type key, p) :: stakes)
      (crud.sight key p found seen c).2 := by
  induction found generalizing seen c with
  | nil => exact hc
  | cons e es ih =>
    unfold sight
    simp only
    -- only an entity of the key that was asked for may go into the placeholder
    split_ifs
    · exact ih _ (hc.mergeInto_stake htype)
    · exact ih _ hc.merge

/-- A read that ends gives up its stake. -/
theorem housed_finishRead (found : List α)
    (hc : Housed ((Memo.slot crud.side crud.type key, p) :: stakes) c)
    (htype : p.type = crud.type) : Housed stakes (crud.finishRead key p found c).2 := by
  have hsight := (housed_sight found ⟨none, none⟩ hc htype).sublist
    (List.sublist_cons_self _ _)
  unfold finishRead
  simp only
  split
  · exact hsight
  · exact hsight.evictRecord crud.side key p

end Read

end Crud

end Reconcile
