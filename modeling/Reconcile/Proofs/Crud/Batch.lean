import Reconcile.Proofs.Cache.Tidy
import Reconcile.Proofs.Crud.Run

/-!
# What a batch of created entities ends in

A creation reserves one slot for each input and settles the created entities one after the other.
When the backend gives every entity a key of its own, that no other input had, each entity ends in
its **destination**: the record that is in the slot of its key already, or else the record reserved
for its input (`Crud.destination`). The memo finds every entity's key in its destination
(`Crud.Unmixed`).

What the destination holds in the end is another matter. A later entity of the batch **touches** a
record if it ends in it, or if the record was reserved for the later entity's input, for then it is
filled for those who hold it (`Crud.Touches`). So the records hold their entities exactly when no
entity's destination is touched by a later one (`Crud.create_apart_iff`). Two inputs of the same key
share one reservation, and if the first entity has no record of its own, the second ends in the
first one's record: `Crud.pairwise_not_touches_iff` says that nothing else goes wrong in a tidy
cache.
-/

namespace Reconcile

namespace Crud

open Cache

variable {α : Type} (crud : Crud α) {c c' : Cache α}

/-- The record that a created entity ends in: the one in the slot of its key, or else the one
reserved for its input. -/
def destination (c : Cache α) (x : Reserved × α) : Handle :=
  (c.memo.find? crud.side crud.type (crud.keyOf x.2)).getD x.1.record

/-- Settling an entity changes a record: the entity ends in it, or it is the one reserved for the
entity's input. -/
def Touches (c : Cache α) (h : Handle) (x : Reserved × α) : Prop :=
  h.place = (crud.destination c x).place ∨ h.place = x.1.record.place

instance (c : Cache α) (h : Handle) : DecidablePred (crud.Touches c h) := fun x =>
  inferInstanceAs (Decidable (h.place = (crud.destination c x).place ∨ h.place = x.1.record.place))

/-- A batch of created entities with the reservations of their inputs, where every entity got a key
of its own that no input had. -/
structure Renamed (c : Cache α) (batch : List (Reserved × α)) : Prop where
  holds : ∀ x ∈ batch, crud.Holds c x.1
  distinct : batch.Pairwise fun x y => crud.keyOf x.2 ≠ crud.keyOf y.2
  new : ∀ x ∈ batch, ∀ y ∈ batch, crud.keyOf x.2 ≠ y.1.key

/-- A batch of created entities with the reservations of their inputs, where every entity has a key
of its own that no other input had. An entity may have the key of its own input, if the record that
was reserved for it is found there. -/
structure Unmixed (c : Cache α) (batch : List (Reserved × α)) : Prop where
  holds : ∀ x ∈ batch, crud.Holds c x.1
  distinct : batch.Pairwise fun x y => crud.keyOf x.2 ≠ crud.keyOf y.2
  apart : batch.Pairwise fun x y => crud.keyOf x.2 ≠ y.1.key ∧ crud.keyOf y.2 ≠ x.1.key
  seated : ∀ x ∈ batch, crud.keyOf x.2 = x.1.key →
    c.memo.find? crud.side crud.type x.1.key = some x.1.record

variable {crud}

theorem Renamed.unmixed {batch : List (Reserved × α)} (h : crud.Renamed c batch) :
    crud.Unmixed c batch where
  holds := h.holds
  distinct := h.distinct
  apart := h.distinct.imp_of_mem fun {x y} hx hy _ => ⟨h.new x hx y hy, h.new y hy x hx⟩
  seated x hx hkey := absurd hkey (h.new x hx x hx)

/-! ### One entity -/

/-- The key of an entity that was settled is found in its destination. -/
theorem find?_settle_self {r : Reserved} {e : α} (hc : c.Sound) (hr : crud.Holds c r) :
    (crud.settle r e c).2.memo.find? crud.side crud.type (crud.keyOf e) =
      some (crud.destination c (r, e)) := by
  rw [find?_settle crud e hc hr, if_pos rfl, fst_settle]
  rfl

/-- Settling one entity leaves the slots of other keys, the input's key apart. -/
theorem recordAt?_settle_of_ne {r : Reserved} {e : α} {key : String} (hc : c.Sound)
    (hr : crud.Holds c r) (hne : key ≠ crud.keyOf e) (hold : key ≠ r.key) :
    (crud.settle r e c).2.recordAt? (Memo.slot crud.side crud.type key) =
      c.recordAt? (Memo.slot crud.side crud.type key) := by
  rw [recordAt?_settle crud e hc hr, if_neg fun h => hne (Memo.slot_inj.mp h),
    if_neg fun h => hold (Memo.slot_inj.mp h.1)]

/-- Settling an entity fills exactly the records that it touches, if it has a new key or its
input's record is found under the input's key. -/
theorem entity?_settle_of_seated {r : Reserved} {e : α} (hc : c.Sound) (hr : crud.Holds c r)
    (hseated : crud.keyOf e = r.key →
      c.memo.find? crud.side crud.type r.key = some r.record) (k : Handle) :
    (crud.settle r e c).2.entity? k =
      if crud.Touches c k (r, e) then some e else c.entity? k := by
  rw [entity?_settle crud e hc hr, fst_settle]
  refine if_congr ?_ rfl rfl
  unfold Touches destination
  by_cases hkey : crud.keyOf e = r.key
  · -- the record of the entity is the one reserved for its input
    simp [hkey, hseated hkey]
  · simp [hkey]

/-! ### The whole batch -/

/-- What settling the first entity leaves is a batch again, with the same destinations. -/
theorem Unmixed.tail {r : Reserved} {e : α} {batch : List (Reserved × α)} (hc : c.Sound)
    (hbatch : crud.Unmixed c ((r, e) :: batch)) :
    crud.Unmixed (crud.settle r e c).2 batch ∧
      ∀ y ∈ batch, crud.destination (crud.settle r e c).2 y = crud.destination c y := by
  obtain ⟨hr, hholds⟩ := List.forall_mem_cons.mp hbatch.holds
  obtain ⟨hfirst, hdistinct⟩ := List.pairwise_cons.mp hbatch.distinct
  obtain ⟨happart, hrest⟩ := List.pairwise_cons.mp hbatch.apart
  obtain ⟨-, hseated⟩ := List.forall_mem_cons.mp hbatch.seated
  have hcalm := crud.calm_settle e hc hr
  -- the keys of the other entities are neither the first entity's nor that of its input
  have hsame : ∀ y ∈ batch, (crud.settle r e c).2.memo.find? crud.side crud.type
      (crud.keyOf y.2) = c.memo.find? crud.side crud.type (crud.keyOf y.2) := fun y hy =>
    find?_congr (recordAt?_settle_of_ne hc hr (hfirst y hy).symm (happart y hy).2)
  refine ⟨⟨fun y hy => (hholds y hy).mono hcalm, hdistinct, hrest, fun y hy hkey => ?_⟩,
    fun y hy => ?_⟩
  · rw [← hkey, hsame y hy, hkey]
    exact hseated y hy hkey
  · unfold destination
    rw [hsame y hy]

/-- Settling the first entity does not change what the others touch. -/
theorem Unmixed.touches_iff {r : Reserved} {e : α} {batch : List (Reserved × α)} (hc : c.Sound)
    (hbatch : crud.Unmixed c ((r, e) :: batch)) {y : Reserved × α} (hy : y ∈ batch) (k : Handle) :
    crud.Touches (crud.settle r e c).2 k y ↔ crud.Touches c k y := by
  unfold Touches
  rw [(hbatch.tail hc).2 y hy]

/-- Every entity's record is its destination. -/
theorem fst_settleAll {rs : List Reserved} {es : List α} (hc : c.Sound)
    (hbatch : crud.Unmixed c (rs.zip es)) :
    (crud.settleAll rs es c).1 = (rs.zip es).map (crud.destination c) := by
  induction rs generalizing es c with
  | nil => cases es <;> rfl
  | cons r rs ih =>
    cases es with
    | nil => rfl
    | cons e es =>
      obtain ⟨hrest, hsame⟩ := hbatch.tail hc
      have hr := hbatch.holds (r, e) List.mem_cons_self
      have hih := ih (crud.calm_settle e hc hr).sound hrest
      rw [settleAll, List.zip_cons_cons, List.map_cons]
      refine congrArg₂ List.cons (fst_settle crud e r c) ?_
      rw [hih]
      exact List.map_congr_left hsame

/-- Settling a batch leaves the slots of keys that are neither an input's nor a created entity's. -/
theorem recordAt?_settleAll_of_ne {rs : List Reserved} {es : List α} (hc : c.Sound)
    (hbatch : crud.Unmixed c (rs.zip es)) {key : String}
    (hkey : ∀ x ∈ rs.zip es, key ≠ crud.keyOf x.2 ∧ key ≠ x.1.key) :
    (crud.settleAll rs es c).2.recordAt? (Memo.slot crud.side crud.type key) =
      c.recordAt? (Memo.slot crud.side crud.type key) := by
  induction rs generalizing es c with
  | nil => cases es <;> rfl
  | cons r rs ih =>
    cases es with
    | nil => rfl
    | cons e es =>
      have hr := hbatch.holds (r, e) List.mem_cons_self
      obtain ⟨⟨hne, hold⟩, hkey⟩ := List.forall_mem_cons.mp hkey
      have hih := ih (crud.calm_settle e hc hr).sound (hbatch.tail hc).1 hkey
      exact hih.trans (recordAt?_settle_of_ne hc hr hne hold)

/-- **The memo** finds every entity's key in its destination. -/
theorem find?_settleAll {rs : List Reserved} {es : List α} (hc : c.Sound)
    (hbatch : crud.Unmixed c (rs.zip es)) :
    ∀ x ∈ rs.zip es, (crud.settleAll rs es c).2.memo.find? crud.side crud.type
      (crud.keyOf x.2) = some (crud.destination c x) := by
  induction rs generalizing es c with
  | nil => exact fun x hx => absurd hx (by simp)
  | cons r rs ih =>
    cases es with
    | nil => exact fun x hx => absurd hx (by simp)
    | cons e es =>
      have hr := hbatch.holds (r, e) List.mem_cons_self
      have hsound := (crud.calm_settle e hc hr).sound
      obtain ⟨hrest, hsame⟩ := hbatch.tail hc
      refine List.forall_mem_cons.mpr ⟨?_, fun y hy => ?_⟩
      · -- no later entity has this key, and no later input had it
        have hlater := recordAt?_settleAll_of_ne hsound hrest fun y hy =>
          ⟨(List.pairwise_cons.mp hbatch.distinct).1 y hy,
            ((List.pairwise_cons.mp hbatch.apart).1 y hy).1⟩
        exact (find?_congr hlater).trans (find?_settle_self hc hr)
      · rw [← hsame y hy]
        exact ih hsound hrest y hy

/-- A record keeps its entity while a batch is settled, unless an entity of the batch touches it;
then it holds an entity of the batch. -/
theorem entity?_settleAll {rs : List Reserved} {es : List α} (hc : c.Sound)
    (hbatch : crud.Unmixed c (rs.zip es)) (k : Handle) :
    (∃ x ∈ rs.zip es, crud.Touches c k x ∧ (crud.settleAll rs es c).2.entity? k = some x.2) ∨
      ((∀ x ∈ rs.zip es, ¬ crud.Touches c k x) ∧
        (crud.settleAll rs es c).2.entity? k = c.entity? k) := by
  induction rs generalizing es c with
  | nil => exact Or.inr ⟨fun x hx => absurd hx (by simp), by cases es <;> rfl⟩
  | cons r rs ih =>
    cases es with
    | nil => exact Or.inr ⟨fun x hx => absurd hx (by simp), rfl⟩
    | cons e es =>
      have hr := hbatch.holds (r, e) List.mem_cons_self
      have hone := entity?_settle_of_seated hc hr (hbatch.seated (r, e) List.mem_cons_self) k
      have hrest := (hbatch.tail hc).1
      -- the last entity that touches the record is the one that it holds, so the later ones are
      -- looked at first
      rcases ih (crud.calm_settle e hc hr).sound hrest with ⟨y, hy, hty, he⟩ | ⟨hnone, he⟩
      · exact Or.inl ⟨y, List.mem_cons_of_mem _ hy, (hbatch.touches_iff hc hy k).mp hty, he⟩
      · have hlater : ∀ y ∈ rs.zip es, ¬ crud.Touches c k y := fun y hy hty =>
          hnone y hy ((hbatch.touches_iff hc hy k).mpr hty)
        by_cases hfirst : crud.Touches c k (r, e)
        · rw [if_pos hfirst] at hone
          exact Or.inl ⟨(r, e), List.mem_cons_self, hfirst, he.trans hone⟩
        · rw [if_neg hfirst] at hone
          exact Or.inr ⟨List.forall_mem_cons.mpr ⟨hfirst, hlater⟩, he.trans hone⟩

/-- The first record of a batch holds its entity in the end exactly when no later entity touches
it. -/
theorem entity?_settleAll_head_iff {r : Reserved} {e : α} {rs : List Reserved} {es : List α}
    (hc : c.Sound) (hbatch : crud.Unmixed c ((r, e) :: rs.zip es)) :
    (crud.settleAll (r :: rs) (e :: es) c).2.entity? (crud.destination c (r, e)) = some e ↔
      ∀ y ∈ rs.zip es, ¬ crud.Touches c (crud.destination c (r, e)) y := by
  have hr : crud.Holds c r := hbatch.holds (r, e) List.mem_cons_self
  have hone : (crud.settle r e c).2.entity? (crud.destination c (r, e)) = some e := by
    rw [entity?_settle_of_seated hc hr (hbatch.seated (r, e) List.mem_cons_self)]
    exact if_pos (Or.inl rfl)
  have hlater := entity?_settleAll (crud.calm_settle e hc hr).sound (hbatch.tail hc).1
    (crud.destination c (r, e))
  constructor
  · intro he y hy hty
    rcases hlater with ⟨z, hz, -, he'⟩ | ⟨hnone, -⟩
    · -- the record would hold entities of two different keys
      have hsameEntity : e = z.2 := Option.some.inj (he.symm.trans he')
      exact (List.pairwise_cons.mp hbatch.distinct).1 z hz (congrArg crud.keyOf hsameEntity)
    · exact hnone y hy ((hbatch.touches_iff hc hy _).mpr hty)
  · intro hnone
    rcases hlater with ⟨z, hz, htz, -⟩ | ⟨-, he⟩
    · exact absurd ((hbatch.touches_iff hc hz _).mp htz) (hnone z hz)
    · exact he.trans hone

/-- **The records** hold their entities exactly when no destination is touched by a later entity of
the batch. -/
theorem entity?_destination_iff {rs : List Reserved} {es : List α} (hc : c.Sound)
    (hbatch : crud.Unmixed c (rs.zip es)) :
    (∀ x ∈ rs.zip es, (crud.settleAll rs es c).2.entity? (crud.destination c x) = some x.2) ↔
      (rs.zip es).Pairwise fun x y => ¬ crud.Touches c (crud.destination c x) y := by
  induction rs generalizing es c with
  | nil => simp
  | cons r rs ih =>
    cases es with
    | nil => simp
    | cons e es =>
      have hr : crud.Holds c r := hbatch.holds (r, e) List.mem_cons_self
      obtain ⟨hrest, hsame⟩ := hbatch.tail hc
      have hih := ih (crud.calm_settle e hc hr).sound hrest
      rw [List.zip_cons_cons, List.forall_mem_cons, List.pairwise_cons]
      refine and_congr (entity?_settleAll_head_iff hc hbatch) ?_
      -- the destinations of the others are the same before and after the first one is settled
      have hleft : (∀ y ∈ rs.zip es, (crud.settleAll (r :: rs) (e :: es) c).2.entity?
            (crud.destination c y) = some y.2) ↔
          ∀ y ∈ rs.zip es, (crud.settleAll rs es (crud.settle r e c).2).2.entity?
            (crud.destination (crud.settle r e c).2 y) = some y.2 :=
        forall₂_congr fun y hy => by rw [hsame y hy]; rfl
      rw [hleft, hih]
      refine List.Pairwise.iff_of_mem fun {x y} hx hy => not_congr ?_
      rw [hbatch.touches_iff hc hy, hsame x hx]

/-! ### The creation -/

section Create

variable {inputs created : List α}

/-- As many entities as inputs, with the reservations of the inputs. -/
theorem map_snd_zip_reserveAll (crud : Crud α) (hlength : created.length = inputs.length)
    (c : Cache α) :
    ((crud.reserveAll inputs c).1.zip created).map Prod.snd = created := by
  refine List.map_snd_zip (Nat.le_of_eq ?_)
  rw [hlength, crud.length_reserveAll]

/-- Entities of distinct keys stand beside their reservations. -/
theorem pairwise_entities (hlength : created.length = inputs.length)
    (hdistinct : (created.map crud.keyOf).Nodup) (c : Cache α) :
    ((crud.reserveAll inputs c).1.zip created).Pairwise fun x y =>
      crud.keyOf x.2 ≠ crud.keyOf y.2 := by
  rw [← crud.map_snd_zip_reserveAll hlength c, List.map_map] at hdistinct
  exact List.pairwise_map.mp hdistinct

/-- Reservations of inputs of distinct keys stand beside their entities. -/
theorem pairwise_inputs (hlength : created.length = inputs.length)
    (hinputs : (inputs.map crud.keyOf).Nodup) (c : Cache α) :
    ((crud.reserveAll inputs c).1.zip created).Pairwise fun x y => x.1.key ≠ y.1.key := by
  have hshort : (crud.reserveAll inputs c).1.length ≤ created.length :=
    Nat.le_of_eq ((crud.length_reserveAll inputs c).trans hlength.symm)
  rw [← crud.map_key_reserveAll inputs c, ← List.map_fst_zip hshort, List.map_map] at hinputs
  exact List.pairwise_map.mp hinputs

/-- The reservations of a creation and the entities that it gets back, all under new keys, are a
renamed batch. Between the two the backend may have changed the cache. -/
theorem renamed_reserveAll (hc : c.Sound)
    (hkept : ∀ h, (crud.reserveAll inputs c).2.Has h → c'.Has h)
    (hlength : created.length = inputs.length) (hdistinct : (created.map crud.keyOf).Nodup)
    (hnew : ∀ e ∈ created, crud.keyOf e ∉ inputs.map crud.keyOf) :
    crud.Renamed c' ((crud.reserveAll inputs c).1.zip created) := by
  have hholds := crud.holds_reserveAll inputs hc
  refine ⟨fun x hx => ?_, pairwise_entities hlength hdistinct c, fun x hx y hy heq => ?_⟩
  · obtain ⟨htype, hhas⟩ := hholds x.1 (List.of_mem_zip hx).1
    exact ⟨htype, hkept _ hhas⟩
  · refine hnew x.2 (List.of_mem_zip hx).2 ?_
    rw [heq, ← crud.map_key_reserveAll inputs c]
    exact List.mem_map_of_mem (List.of_mem_zip hy).1

/-- When there is one entity for each input, the end of a creation settles them all. -/
theorem endCreate_of_length (crud : Crud α) (hlength : created.length = inputs.length)
    (c c' : Cache α) :
    crud.endCreate (crud.reserveAll inputs c).1 (.ok created) c' =
      (.ok (crud.settleAll (crud.reserveAll inputs c).1 created c').1,
        (crud.settleAll (crud.reserveAll inputs c).1 created c').2) := by
  rw [← crud.finishCreate_of_length (hlength.trans (crud.length_reserveAll inputs c).symm) c']
  rfl

/-- A creation whose backend answers with one entity for each input settles them all. -/
theorem create_eq_settleAll (crud : Crud α) (backend : Backend (StateM (Cache α)) α)
    (hanswer : (backend.create inputs).run (crud.reserveAll inputs c).2 = (.ok created, c'))
    (hlength : created.length = inputs.length) :
    (crud.create backend inputs).run c =
      (.ok (crud.settleAll (crud.reserveAll inputs c).1 created c').1,
        (crud.settleAll (crud.reserveAll inputs c).1 created c').2) := by
  rw [run_create, hanswer, ← crud.endCreate_of_length hlength]
  rfl

/-- **Created entities and their records.** When the backend gives every created entity a key of its
own that no input had, the memo finds every key in the record that is returned for it. The records
hold their entities exactly when no entity's destination is touched by a later entity. -/
theorem create_apart_iff (crud : Crud α) (backend : Backend (StateM (Cache α)) α) (hc : c.Sound)
    (hanswer : (backend.create inputs).run (crud.reserveAll inputs c).2 = (.ok created, c'))
    (hc' : c'.Sound) (hkept : ∀ h, (crud.reserveAll inputs c).2.Has h → c'.Has h)
    (hlength : created.length = inputs.length) (hdistinct : (created.map crud.keyOf).Nodup)
    (hnew : ∀ e ∈ created, crud.keyOf e ∉ inputs.map crud.keyOf) :
    ∃ records c'', (crud.create backend inputs).run c = (.ok records, c'') ∧
      records.length = created.length ∧
      (∀ x ∈ records.zip created,
        c''.memo.find? crud.side crud.type (crud.keyOf x.2) = some x.1) ∧
      ((∀ x ∈ records.zip created, c''.entity? x.1 = some x.2) ↔
        ((crud.reserveAll inputs c).1.zip created).Pairwise fun x y =>
          ¬ crud.Touches c' (crud.destination c' x) y) := by
  have hbatch := (renamed_reserveAll hc hkept hlength hdistinct hnew).unmixed
  have hcreated := crud.map_snd_zip_reserveAll hlength c
  have hrecords : (crud.settleAll (crud.reserveAll inputs c).1 created c').1.zip created =
      ((crud.reserveAll inputs c).1.zip created).map fun x => (crud.destination c' x, x.2) := by
    rw [fst_settleAll hc' hbatch]
    calc _ = (((crud.reserveAll inputs c).1.zip created).map (crud.destination c')).zip
          (((crud.reserveAll inputs c).1.zip created).map Prod.snd) := by rw [hcreated]
      _ = _ := List.zip_map'
  refine ⟨_, _, create_eq_settleAll crud backend hanswer hlength, ?_, ?_, ?_⟩
  · rw [fst_settleAll hc' hbatch, List.length_map, ← List.length_map Prod.snd, hcreated]
  · rw [hrecords, List.forall_mem_map]
    exact find?_settleAll hc' hbatch
  · rw [hrecords, List.forall_mem_map]
    exact entity?_destination_iff hc' hbatch

/-- A backend that answers every creation with the same entities. -/
def answering (created : List α) : Backend (StateM (Cache α)) α where
  create _ := pure (.ok created)
  read _ := pure (.ok [])
  update es := pure (.ok es)
  delete _ := pure (.ok ())

/-- Two entities of different keys are created, and get new ones. Each has a record of its own. -/
theorem create_apart_of_distinct :
    let crud : Crud (String × Nat) := ⟨⟨"Queue", "Queue"⟩, .cloud, Prod.fst⟩
    let inputs := [("", 1), ("a", 2)]
    let created := [("x", 3), ("y", 4)]
    ∃ records c, (crud.create (answering created) inputs).run Cache.empty = (.ok records, c) ∧
      (∀ x ∈ records.zip created,
        c.memo.find? crud.side crud.type (crud.keyOf x.2) = some x.1) ∧
      ∀ x ∈ records.zip created, c.entity? x.1 = some x.2 := by
  intro crud inputs created
  have hanswer : ((answering created).create inputs).run (crud.reserveAll inputs Cache.empty).2 =
      (.ok created, (crud.reserveAll inputs Cache.empty).2) := rfl
  obtain ⟨records, c, hrun, -, hfound, hiff⟩ := create_apart_iff crud (answering created)
    sound_empty hanswer (crud.calm_reserveAll inputs sound_empty).sound (fun _ hh => hh) rfl
    (by decide) (by decide)
  exact ⟨records, c, hrun, hfound, hiff.mpr (by decide)⟩

/-- **Two inputs without a key** are created, and get a key each. They share a record: the first one
is returned for the first entity and holds the second. -/
theorem created_share_record :
    let crud : Crud (String × Nat) := ⟨⟨"Queue", "Queue"⟩, .cloud, Prod.fst⟩
    let inputs := [("", 1), ("", 2)]
    let created := [("x", 3), ("y", 4)]
    (created.length = inputs.length ∧ (created.map crud.keyOf).Nodup ∧
      ∀ e ∈ created, crud.keyOf e ∉ inputs.map crud.keyOf) ∧
    ∃ h c, (crud.create (answering created) inputs).run Cache.empty = (.ok [h, h], c) ∧
      c.memo.find? crud.side crud.type "x" = some h ∧ c.entity? h = some ("y", 4) := by
  intro crud inputs created
  have hrun := create_eq_settleAll crud (answering created) (c := Cache.empty)
    (show ((answering created).create inputs).run _ = (.ok created, _) from rfl) rfl
  have hshared : (crud.settleAll (crud.reserveAll inputs Cache.empty).1 created
      (crud.reserveAll inputs Cache.empty).2).1 = [⟨crud.type, 0⟩, ⟨crud.type, 0⟩] := by decide
  rw [hshared] at hrun
  exact ⟨⟨rfl, by decide, by decide⟩, _, _, hrun, by decide, by decide⟩

/-! ### In a tidy cache -/

private theorem pairwise_congr {β : Type} {R S T : β → β → Prop} {l : List β} (hT : l.Pairwise T)
    (h : ∀ x ∈ l, ∀ y ∈ l, T x y → (R x y ↔ S x y)) : l.Pairwise R ↔ l.Pairwise S := by
  constructor
  · exact fun hR => (hT.and hR).imp_of_mem fun hx hy hxy => (h _ hx _ hy hxy.1).mp hxy.2
  · exact fun hS => (hT.and hS).imp_of_mem fun hx hy hxy => (h _ hx _ hy hxy.1).mpr hxy.2

/-- In a tidy cache, with a backend that does not use the cache, the one thing that goes wrong is
that two inputs have the same key and the first of them got a key under which there was no record.
Then the second entity ends in the record of the first. -/
theorem pairwise_not_touches_iff {keyOf : EntityType → α → String} (ht : Tidy keyOf [] c)
    (hkeyOf : crud.keyOf = keyOf crud.type) (hlength : created.length = inputs.length)
    (hdistinct : (created.map crud.keyOf).Nodup)
    (hnew : ∀ e ∈ created, crud.keyOf e ∉ inputs.map crud.keyOf) :
    (((crud.reserveAll inputs c).1.zip created).Pairwise fun x y =>
        ¬ crud.Touches (crud.reserveAll inputs c).2
          (crud.destination (crud.reserveAll inputs c).2 x) y) ↔
      ((inputs.map crud.keyOf).zip (created.map crud.keyOf)).Pairwise fun x y =>
        x.1 = y.1 → (c.memo.find? crud.side crud.type x.2).isSome := by
  have hbatch := renamed_reserveAll ht.sound (fun _ hh => hh) hlength hdistinct hnew
  have htidy := tidy_reserveAll_idle hkeyOf inputs ht
  rw [← crud.map_key_reserveAll inputs c, List.zip_map, List.pairwise_map]
  refine pairwise_congr hbatch.distinct fun x hx y hy hne => ?_
  -- the key under which the destination of an entity is found
  let home := fun x : Reserved × α =>
    if (c.memo.find? crud.side crud.type (crud.keyOf x.2)).isSome then crud.keyOf x.2 else x.1.key
  have hseated : ∀ x ∈ (crud.reserveAll inputs c).1.zip created,
      (crud.reserveAll inputs c).2.memo.find? crud.side crud.type x.1.key = some x.1.record :=
    fun x hx => crud.find?_reserveAll_of_mem inputs c x.1 (List.of_mem_zip hx).1
  have hhome : ∀ x ∈ (crud.reserveAll inputs c).1.zip created,
      (crud.reserveAll inputs c).2.memo.find? crud.side crud.type (home x) =
        some (crud.destination (crud.reserveAll inputs c).2 x) := fun x hx => by
    have hsame := crud.find?_reserveAll_of_new inputs c (hnew x.2 (List.of_mem_zip hx).2)
    simp only [home, destination, hsame]
    split_ifs with hfound
    · obtain ⟨h, hh⟩ := Option.isSome_iff_exists.mp hfound
      rw [hsame, hh, Option.getD_some]
    · rw [Option.not_isSome_iff_eq_none.mp hfound, Option.getD_none]
      exact hseated x hx
  -- in a tidy cache records are the same if they are found under the same key
  have htouch : crud.Touches (crud.reserveAll inputs c).2
      (crud.destination (crud.reserveAll inputs c).2 x) y ↔
        home x = home y ∨ home x = y.1.key := by
    constructor
    · rintro (hplace | hplace)
      · exact Or.inl (htidy.housed.find?_inj (hhome x hx) (hhome y hy) hplace)
      · exact Or.inr (htidy.housed.find?_inj (hhome x hx) (hseated y hy) hplace)
    · rintro (hkey | hkey)
      · have hsame := (hhome x hx).symm.trans (hkey ▸ hhome y hy)
        exact Or.inl (congrArg Handle.place (Option.some.inj hsame))
      · have hsame := (hhome x hx).symm.trans (hkey ▸ hseated y hy)
        exact Or.inr (congrArg Handle.place (Option.some.inj hsame))
  have hxy := hbatch.new x hx y hy
  have hyx := hbatch.new y hy x hx
  rw [htouch]
  by_cases hfound : (c.memo.find? crud.side crud.type (crud.keyOf x.2)).isSome
  · -- the first entity has a record under its new key, where no other entity or input goes
    have hx' : home x = crud.keyOf x.2 := if_pos hfound
    have hapart : home x ≠ home y := by
      rw [hx']
      simp only [home]
      split_ifs
      · exact hne
      · exact hxy
    exact iff_of_true (fun h => h.elim hapart (hx' ▸ hxy)) fun _ => hfound
  · -- the first entity ends in its reservation, which is shared by inputs of the same key
    have hx' : home x = x.1.key := if_neg hfound
    have hshared : home x = home y → x.1.key = y.1.key := by
      rw [hx']
      simp only [home]
      split_ifs
      · exact fun h => absurd h.symm hyx
      · exact id
    constructor
    · exact fun h hkey => absurd (Or.inr (hx'.trans hkey)) h
    · exact fun h h' => hfound (h (h'.elim hshared hx'.symm.trans))

end Create

end Crud

end Reconcile
