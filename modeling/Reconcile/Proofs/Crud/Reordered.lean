import Reconcile.Proofs.Crud.Merged

/-!
# Created entities that come back in another order

A creation settles the created entities one after the other, each into the record that was reserved
for the input in its place. Here the entities have the keys of the inputs, but not in the inputs'
order, so each is settled under a key at which the record of another input may still be found, or
may be found no longer.

What becomes of an entity depends on whether it stands before its input, with it or after it:

* **Before**: it goes into the record of its input, and the slot of its key is vacated when that
  input's turn comes.
* **With it**: it goes into the record of its input, and stays there.
* **After**: the slot of its key is vacant by then, and gets the record of the input in its place.

In any case the record that was reserved for an input ends with the entity in the input's place
(`Crud.Paired.entity?_settleAll`, `Crud.Paired.getElem?_settleAll`). So every key is found with its
own record and its own entity exactly when the order is the inputs' (`Crud.create_in_order_iff`).
-/

namespace Reconcile

namespace Crud

open Cache

variable {σ α : Type} {crud : Crud α} {c c₂ : Cache α}

/-! ### Places in a batch -/

namespace Paired

variable {rs : List Reserved} {es : List α}

/-- An entity whose key has a vacant slot gets the record reserved for the input in its place. -/
theorem getElem?_settleAll_of_vacant (hc : c.Sound) (h : crud.Paired c (rs.zip es)) {j : Nat}
    {y : Reserved × α} (hy : (rs.zip es)[j]? = some y)
    (hvacant : c.recordAt? (Memo.slot crud.side crud.type (crud.keyOf y.2)) = none) :
    (crud.settleAll rs es c).1[j]? = some y.1.record ∧
      (crud.settleAll rs es c).2.recordAt? (Memo.slot crud.side crud.type (crud.keyOf y.2)) =
        some y.1.record := by
  induction rs generalizing es c j with
  | nil => simp at hy
  | cons r rs ih =>
    cases es with
    | nil => simp at hy
    | cons e es =>
      have hr := h.holds_head hc
      have hsound := (crud.calm_settle e hc hr).sound
      have hone := recordAt?_settle crud e hc hr (Memo.slot crud.side crud.type (crud.keyOf y.2))
      cases j with
      | zero =>
        cases hy
        have hheld : (crud.settle r e c).1 = r.record := by
          rw [fst_settle, find?_eq_none_of_recordAt? hvacant, Option.getD_none]
        -- the slot was vacant, so no input has the key
        have hinput : ¬ ∃ x ∈ rs.zip es, x.1.key = crud.keyOf e := by
          rintro ⟨x, hx, hkey⟩
          have hseat := (find?_eq_some.mp (h.seated x (List.mem_cons_of_mem _ hx))).1
          rw [hkey, hvacant] at hseat
          cases hseat
        refine ⟨congrArg some hheld, ?_⟩
        refine (recordAt?_settleAll_of_ne hsound (h.tail hc)
          (List.pairwise_cons.mp h.entities).1).trans ?_
        rw [if_neg hinput, hone, if_pos rfl, hheld]
      | succ j =>
        have hne := (List.pairwise_cons.mp h.entities).1 y (List.mem_of_getElem? hy)
        refine ih hsound (h.tail hc) hy ?_
        rw [hone, if_neg fun hslot => hne (Memo.slot_inj.mp hslot).symm, hvacant, ite_self]

/-- **An entity with the key of an input.** If it stands before the input, it goes into the input's
record and loses the slot again. Otherwise its key ends with the record that was reserved for the
input in the entity's place. -/
theorem getElem?_settleAll (hc : Housed [] c) (h : crud.Paired c (rs.zip es)) {i j : Nat}
    {x y : Reserved × α} (hx : (rs.zip es)[i]? = some x) (hy : (rs.zip es)[j]? = some y)
    (hkey : crud.keyOf y.2 = x.1.key) :
    (crud.settleAll rs es c).1[j]? = some (if j < i then x.1.record else y.1.record) ∧
      (crud.settleAll rs es c).2.recordAt? (Memo.slot crud.side crud.type x.1.key) =
        if j < i then none else some y.1.record := by
  induction rs generalizing es c i j with
  | nil => simp at hx
  | cons r rs ih =>
    cases es with
    | nil => simp at hx
    | cons e es =>
      obtain ⟨hentity, -⟩ := List.pairwise_cons.mp h.entities
      have hr := h.holds_head hc.sound
      have hsound := (crud.calm_settle e hc.sound hr).sound
      have hone := recordAt?_settle crud e hc.sound hr
      have hseat := h.seated x (List.mem_of_getElem? hx)
      have hfst : crud.keyOf e = x.1.key → (crud.settle r e c).1 = x.1.record := fun hkey => by
        rw [fst_settle, hkey, hseat, Option.getD_some]
      cases j with
      | zero =>
        -- the entity is settled first, in the record that is found under its key
        cases hy
        have hlater := recordAt?_settleAll_of_ne hsound (h.tail hc.sound) hentity
        rw [hone, if_pos (congrArg _ rfl), hfst hkey, hkey] at hlater
        cases i with
        | zero =>
          cases hx
          have hother : ¬ ∃ x ∈ rs.zip es, x.1.key = r.key := by
            rintro ⟨x, hx, hsame⟩
            exact (List.pairwise_cons.mp h.inputs).1 x hx hsame.symm
          rw [if_neg hother] at hlater
          exact ⟨congrArg some (hfst hkey), hlater⟩
        | succ i =>
          rw [if_pos ⟨x, List.mem_of_getElem? hx, rfl⟩] at hlater
          exact ⟨congrArg some (hfst hkey), hlater⟩
      | succ j =>
        cases i with
        | zero =>
          -- the input has left the slot, and nothing gets there before the entity
          cases hx
          have hne := hentity y (List.mem_of_getElem? hy)
          have hvacant : (crud.settle r e c).2.recordAt?
              (Memo.slot crud.side crud.type (crud.keyOf y.2)) = none := by
            rw [hone, if_neg fun hslot => hne (Memo.slot_inj.mp hslot).symm, if_pos]
            exact ⟨congrArg _ hkey, hkey ▸ (find?_eq_some.mp hseat).1⟩
          exact hkey ▸ getElem?_settleAll_of_vacant hsound (h.tail hc.sound) hy hvacant
        | succ i =>
          simp only [Nat.add_lt_add_iff_right]
          exact ih (h.housed_tail hc) (h.tail hc.sound) hx hy

/-- **The order of the inputs.** When the entities have the keys of the inputs, each is found in the
record of its key, and is in the record that is returned for it, exactly if each has the key of the
input in its place. -/
theorem found_iff_ordered (hc : Housed [] c) (h : crud.Paired c (rs.zip es))
    (hlength : rs.length = es.length) (hkeys : ∀ e ∈ es, ∃ x ∈ rs, crud.keyOf e = x.key) :
    ((∀ x ∈ rs, ∀ e ∈ es, crud.keyOf e = x.key →
        (crud.settleAll rs es c).2.recordAt? (Memo.slot crud.side crud.type x.key) =
            some x.record ∧
          (crud.settleAll rs es c).2.entity? x.record = some e) ∧
      ∀ z ∈ (crud.settleAll rs es c).1.zip es,
        (crud.settleAll rs es c).2.entity? z.1 = some z.2) ↔
      ∀ z ∈ rs.zip es, crud.keyOf z.2 = z.1.key := by
  -- every input and every entity is in the batch
  have hinput : ∀ {i x}, rs[i]? = some x → ∃ e, (rs.zip es)[i]? = some (x, e) := fun {i x} hx => by
    have hi : i < es.length := hlength ▸ (List.getElem?_eq_some_iff.mp hx).1
    exact ⟨es[i], List.getElem?_zip_eq_some.mpr ⟨hx, List.getElem?_eq_getElem hi⟩⟩
  have hentity : ∀ {j e}, es[j]? = some e → ∃ y, (rs.zip es)[j]? = some (y, e) := fun {j e} he => by
    have hj : j < rs.length := hlength ▸ (List.getElem?_eq_some_iff.mp he).1
    exact ⟨rs[j], List.getElem?_zip_eq_some.mpr ⟨List.getElem?_eq_getElem hj, he⟩⟩
  constructor
  · rintro ⟨hfound, -⟩ ⟨y, e⟩ hz
    -- the slot of the entity's key has the record of the entity's place
    obtain ⟨j, hj⟩ := List.mem_iff_getElem?.mp hz
    obtain ⟨x, hx, hkey⟩ := hkeys e (List.of_mem_zip hz).2
    obtain ⟨i, hi⟩ := List.mem_iff_getElem?.mp hx
    obtain ⟨e', hi⟩ := hinput hi
    have hslot := (hfound x hx e (List.of_mem_zip hz).2 hkey).1
    rw [(h.getElem?_settleAll hc hi hj hkey).2] at hslot
    split_ifs at hslot
    have hplace := congrArg Handle.place (Option.some.inj hslot)
    have hseat := h.seated _ (List.mem_of_getElem? hi)
    exact hkey.trans (hc.find?_inj (h.seated _ hz) hseat hplace).symm
  · intro horder
    -- an entity of the key of an input is in the input's place
    have hsame : ∀ {j : Nat} {z : Reserved × α}, (rs.zip es)[j]? = some z →
        (crud.settleAll rs es c).1[j]? = some z.1.record ∧
          (crud.settleAll rs es c).2.recordAt? (Memo.slot crud.side crud.type z.1.key) =
            some z.1.record := fun {j z} hz => by
      have hone := h.getElem?_settleAll hc hz hz (horder z (List.mem_of_getElem? hz))
      rwa [if_neg (Nat.lt_irrefl j), if_neg (Nat.lt_irrefl j)] at hone
    refine ⟨fun x hx e he hkey => ?_, fun z hz => ?_⟩
    · obtain ⟨i, hi⟩ := List.mem_iff_getElem?.mp hx
      obtain ⟨j, hj⟩ := List.mem_iff_getElem?.mp he
      obtain ⟨e', hi⟩ := hinput hi
      obtain ⟨y, hj⟩ := hentity hj
      have hy := List.mem_of_getElem? hj
      obtain ⟨rfl, rfl⟩ := Prod.mk.inj
        (h.eq_of_key (List.mem_of_getElem? hi) hy (hkey.symm.trans (horder _ hy)))
      exact ⟨(hsame hi).2, h.entity?_settleAll hc _ hy⟩
    · obtain ⟨j, hj⟩ := List.mem_iff_getElem?.mp hz
      obtain ⟨hrecord, he⟩ := List.getElem?_zip_eq_some.mp hj
      obtain ⟨y, hy⟩ := hentity he
      rw [Option.some.inj (hrecord.symm.trans (hsame hy).1)]
      exact h.entity?_settleAll hc _ (List.mem_of_getElem? hy)

end Paired

/-! ### The creation -/

section Create

variable {inputs created : List α}

/-- Inputs of distinct keys and as many created entities of distinct keys are such a batch, if the
backend has left the reservations where they were. -/
theorem paired_reserveAll (hlength : created.length = inputs.length)
    (hinputs : (inputs.map crud.keyOf).Nodup) (hdistinct : (created.map crud.keyOf).Nodup)
    (hbackend : crud.Undisturbed (crud.reserveAll inputs c).2 c₂) :
    crud.Paired c₂ ((crud.reserveAll inputs c).1.zip created) where
  seated x hx := hbackend.seated x.1 (List.of_mem_zip hx).1
  inputs := pairwise_inputs hlength hinputs c
  entities := pairwise_entities hlength hdistinct c

/-- As many entities as inputs have the inputs' keys in the inputs' order if each has the key of the
reservation in its place. -/
theorem map_keyOf_eq_iff (hlength : created.length = inputs.length) (c : Cache α) :
    created.map crud.keyOf = inputs.map crud.keyOf ↔
      ∀ z ∈ (crud.reserveAll inputs c).1.zip created, crud.keyOf z.2 = z.1.key := by
  have hshort : (crud.reserveAll inputs c).1.length ≤ created.length :=
    Nat.le_of_eq ((crud.length_reserveAll inputs c).trans hlength.symm)
  have hcreated := crud.map_snd_zip_reserveAll hlength c
  have hreserved := List.map_fst_zip hshort
  rw [← crud.map_key_reserveAll inputs c]
  calc created.map crud.keyOf = (crud.reserveAll inputs c).1.map (·.key)
      ↔ (((crud.reserveAll inputs c).1.zip created).map Prod.snd).map crud.keyOf =
          (((crud.reserveAll inputs c).1.zip created).map Prod.fst).map (·.key) := by
        rw [hcreated, hreserved]
    _ ↔ _ := by
        rw [List.map_map, List.map_map]
        exact List.map_inj_left

/-- **Created entities in another order.** On a cache in which no record is in two slots, inputs
with distinct keys are created, and the backend answers with one entity for each of these keys, in
any order. Then the record that was reserved in the place of an entity holds it. If the entity
stands before its input, nothing is found under its key any more, and the record returned for it is
that of the input, which holds another entity. Otherwise the record in the entity's place is
returned and is found under its key. So all entities are found in the records of their keys, and are
in the records that are returned for them, exactly when they come back in the order of the
inputs. -/
theorem create_in_order_iff (backend : Backend (Work σ α) α) (hc : Housed [] c)
    (hinputs : (inputs.map crud.keyOf).Nodup)
    (hanswer : (created.map crud.keyOf).Perm (inputs.map crud.keyOf)) {st st' : σ}
    (hrun : ((backend.create inputs).run (crud.reserveAll inputs c).2).run st =
      ((.ok created, c₂), st'))
    (hbackend : crud.Undisturbed (crud.reserveAll inputs c).2 c₂) :
    let slot := Memo.slot crud.side crud.type
    let reserved := (crud.reserveAll inputs c).1
    ∃ records c', ((crud.create backend inputs).run c).run st = ((.ok records, c'), st') ∧
      records.length = created.length ∧
      (∀ (i j : Nat) (x y : Reserved) (e : α), reserved[i]? = some x → reserved[j]? = some y →
        created[j]? = some e → crud.keyOf e = x.key →
        c'.entity? y.record = some e ∧
        c'.recordAt? (slot x.key) = (if j < i then none else some y.record) ∧
        records[j]? = some (if j < i then x.record else y.record)) ∧
      (((∀ x ∈ reserved, ∀ e ∈ created, crud.keyOf e = x.key →
          c'.recordAt? (slot x.key) = some x.record ∧ c'.entity? x.record = some e) ∧
        ∀ z ∈ records.zip created, c'.entity? z.1 = some z.2) ↔
      created.map crud.keyOf = inputs.map crud.keyOf) := by
  intro slot reserved
  have hlength : created.length = inputs.length := by simpa using hanswer.length_eq
  have hreserved : reserved.length = created.length :=
    (crud.length_reserveAll inputs c).trans hlength.symm
  have hhoused := hbackend.housed (housed_reserveAll inputs hc)
  have hpaired := paired_reserveAll hlength hinputs (hanswer.nodup_iff.mpr hinputs) hbackend
  refine ⟨_, _, run_create_of_length crud backend hlength hrun,
    length_settleAll hreserved.symm c₂, fun i j x y e hx hy he hkey => ?_, ?_⟩
  · have hi : i < created.length := hreserved ▸ (List.getElem?_eq_some_iff.mp hx).1
    have hxz : (reserved.zip created)[i]? = some (x, created[i]) :=
      List.getElem?_zip_eq_some.mpr ⟨hx, List.getElem?_eq_getElem hi⟩
    have hyz : (reserved.zip created)[j]? = some (y, e) :=
      List.getElem?_zip_eq_some.mpr ⟨hy, he⟩
    obtain ⟨hrecord, hslot⟩ := hpaired.getElem?_settleAll hhoused hxz hyz hkey
    exact ⟨hpaired.entity?_settleAll hhoused _ (List.mem_of_getElem? hyz), hslot, hrecord⟩
  · rw [map_keyOf_eq_iff hlength c]
    refine hpaired.found_iff_ordered hhoused hreserved fun e he => ?_
    have hmem : crud.keyOf e ∈ reserved.map (·.key) := by
      rw [crud.map_key_reserveAll inputs c]
      exact hanswer.mem_iff.mp (List.mem_map_of_mem he)
    obtain ⟨x, hx, hkey⟩ := List.mem_map.mp hmem
    exact ⟨x, hx, hkey.symm⟩

/-- A backend that reads a key and lists everything before it answers to a creation with the given
entities. -/
def inquiring (created : List (String × Nat)) : Backend (Work Unit (String × Nat)) (String × Nat)
    where
  create _ := do
    let _ ← shelfCrud.read (finding [("z", 7)]) "z"
    let _ ← shelfCrud.readAll (finding [("c", 8), ("y", 9)])
    return .ok created
  read _ := pure (.ok [])
  update es := pure (.ok es)
  delete _ := pure (.ok ())

/-- Of three inputs the first comes back last, so that the two others come back one place early; the
key of one of them is being read. These two are found no longer, and the late one has the record of
the last input. -/
theorem create_in_order_iff_rotated :
    let slot := Memo.slot shelfCrud.side shelfCrud.type
    let h := fun place => (⟨shelfCrud.type, place⟩ : Handle)
    halfRead.recordAt? (slot "a") = some (h 0) ∧ halfRead.recordAt? (slot "b") = some (h 1) ∧
      ∃ c', ((shelfCrud.create (inquiring [("b", 5), ("c", 6), ("a", 7)])
          [("a", 2), ("b", 3), ("c", 4)]).run halfRead).run () = ((.ok [h 1, h 2, h 2], c'), ()) ∧
        c'.entity? (h 0) = some ("b", 5) ∧ c'.entity? (h 1) = some ("c", 6) ∧
        c'.recordAt? (slot "b") = none ∧ c'.recordAt? (slot "c") = none ∧
        c'.recordAt? (slot "a") = some (h 2) ∧ c'.entity? (h 2) = some ("a", 7) := by
  intro slot h
  let lookups : List (Event (String × Nat)) :=
    [.begin shelfCrud (.read "z"), .finish 0 (.ok [("z", 7)]),
      .begin shelfCrud .readAll, .finish 0 (.ok [("c", 8), ("y", 9)])]
  have htype := Set.mem_singleton shelfCrud.type
  have hlookups : ∀ event ∈ lookups, event.IsLookup {shelfCrud.type} := by
    simp only [lookups, List.forall_mem_cons]
    exact ⟨.read htype _, .finish _ _, .readAll htype, .finish _ _, nofun⟩
  have hlooking := looking_reserveAll housed_halfRead (fun _ _ hs => type_of_halfRead hs) htype
    [("a", 2), ("b", 3), ("c", 4)]
  obtain ⟨records, c', hrun, -, houtcome, -⟩ := create_in_order_iff
    (inquiring [("b", 5), ("c", 6), ("a", 7)]) housed_halfRead
    (show ([("a", 2), ("b", 3), ("c", 4)].map shelfCrud.keyOf).Nodup by decide) (by decide)
    (rfl : (((inquiring _).create _).run _).run () = _)
    (hlooking.undisturbed (Set.injOn_singleton _ _) shelfCrud hlookups)
  obtain rfl : records = [h 1, h 2, h 2] := by
    have hanswer : ((shelfCrud.create (inquiring [("b", 5), ("c", 6), ("a", 7)])
        [("a", 2), ("b", 3), ("c", 4)]).run halfRead).run () =
          ((.ok [h 1, h 2, h 2], _), _) := rfl
    exact Except.ok.inj (congrArg (·.1.1) (hrun.symm.trans hanswer))
  let a : Reserved := ⟨"a", h 0, false⟩
  let b : Reserved := ⟨"b", h 1, false⟩
  let c : Reserved := ⟨"c", h 2, true⟩
  obtain ⟨hfirst, hlost, -⟩ := houtcome 1 0 b a ("b", 5) rfl rfl rfl rfl
  obtain ⟨hsecond, hlost', -⟩ := houtcome 2 1 c b ("c", 6) rfl rfl rfl rfl
  obtain ⟨hthird, hfound, -⟩ := houtcome 0 2 a c ("a", 7) rfl rfl rfl rfl
  exact ⟨by decide, by decide, c', hrun, hfirst, hsecond, hlost, hlost', hfound, hthird⟩

/-- **Two inputs that come back in exchange.** Nothing is found under the key of the entity that
comes first, and the record that is returned for it holds the other one. -/
theorem create_loses_entity :
    let inputs := [("a", 1), ("b", 2)]
    let created := [("b", 3), ("a", 4)]
    ((inputs.map shelfCrud.keyOf).Nodup ∧
      (created.map shelfCrud.keyOf).Perm (inputs.map shelfCrud.keyOf)) ∧
    ∃ h c', ((shelfCrud.create (finding created) inputs).run Cache.empty).run () =
        ((.ok [h, h], c'), ()) ∧
      c'.memo.find? shelfCrud.side shelfCrud.type "b" = none ∧ c'.entity? h = some ("a", 4) := by
  intro inputs created
  exact ⟨⟨by decide, by decide⟩, ⟨shelfCrud.type, 1⟩, _, rfl, by decide, by decide⟩

end Create

end Crud

end Reconcile
