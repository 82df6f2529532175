import Reconcile.Proofs.Crud.Batch

/-!
# Batches of distinct inputs and distinct entities

A creation settles one entity for each input. Here the inputs have distinct keys and the entities
have distinct keys, but an entity may have the key of any input, and each reserved record is found
under its input's key (`Crud.Paired`). Then a key that an input has and no entity has is vacated
(`Crud.Paired.recordAt?_settleAll_of_ne`), and the record that was reserved for an input ends with
the entity in the input's place (`Crud.Paired.entity?_settleAll`), since a later entity comes across
a record only where it is found.
-/

namespace Reconcile

namespace Crud

open Cache

variable {α : Type} {crud : Crud α} {c : Cache α}

/-- A batch in which the inputs have distinct keys and the entities have distinct keys, and the
record that was reserved for an input is found under the input's key. Any entity may have the key of
any input. -/
structure Paired (crud : Crud α) (c : Cache α) (batch : List (Reserved × α)) : Prop where
  seated : ∀ x ∈ batch, c.memo.find? crud.side crud.type x.1.key = some x.1.record
  inputs : batch.Pairwise fun x y => x.1.key ≠ y.1.key
  entities : batch.Pairwise fun x y => crud.keyOf x.2 ≠ crud.keyOf y.2

namespace Paired

variable {batch : List (Reserved × α)}

/-- The reservation of the first entity may be relied on. -/
theorem holds_head {r : Reserved} {e : α} (hc : c.Sound) (h : crud.Paired c ((r, e) :: batch)) :
    crud.Holds c r :=
  holds_of_find? hc (h.seated (r, e) List.mem_cons_self)

/-- Two members of a batch with the same input are the same. -/
theorem eq_of_key (h : crud.Paired c batch) {x y : Reserved × α} (hx : x ∈ batch) (hy : y ∈ batch)
    (hkey : x.1.key = y.1.key) : x = y :=
  List.inj_on_of_nodup_map (List.pairwise_map.mpr h.inputs) hx hy hkey

/-- What settling the first entity leaves is such a batch again. -/
theorem tail {r : Reserved} {e : α} (hc : c.Sound) (h : crud.Paired c ((r, e) :: batch)) :
    crud.Paired (crud.settle r e c).2 batch := by
  obtain ⟨hfirst, hinputs⟩ := List.pairwise_cons.mp h.inputs
  refine ⟨fun y hy => ?_, hinputs, (List.pairwise_cons.mp h.entities).2⟩
  exact crud.find?_settle_of_seated e hc (h.holds_head hc) (hfirst y hy).symm
    (h.seated y (List.mem_cons_of_mem _ hy))

/-- Settling the first entity puts no record into a second slot. -/
theorem housed_tail {r : Reserved} {e : α} (hc : Housed [] c)
    (h : crud.Paired c ((r, e) :: batch)) : Housed [] (crud.settle r e c).2 := by
  obtain ⟨hs, htype⟩ := find?_eq_some.mp (h.seated (r, e) List.mem_cons_self)
  exact housed_settle (hc.stake_seated hs nofun) htype e

variable {rs : List Reserved} {es : List α}

/-- **A key that no entity has** keeps what is in its slot, unless an input has it; then the slot is
vacated. -/
theorem recordAt?_settleAll_of_ne (hc : c.Sound) (h : crud.Paired c (rs.zip es)) {key : String}
    (hkey : ∀ x ∈ rs.zip es, key ≠ crud.keyOf x.2) :
    (crud.settleAll rs es c).2.recordAt? (Memo.slot crud.side crud.type key) =
      if ∃ x ∈ rs.zip es, x.1.key = key then none
      else c.recordAt? (Memo.slot crud.side crud.type key) := by
  induction rs generalizing es c with
  | nil => rw [List.zip_nil_left, if_neg (by simp)]; cases es <;> rfl
  | cons r rs ih =>
    cases es with
    | nil => rw [List.zip_nil_right, if_neg (by simp)]; rfl
    | cons e es =>
      obtain ⟨hfirst, hrest⟩ := List.forall_mem_cons.mp hkey
      have hr := h.holds_head hc
      have hheld := (find?_eq_some.mp (h.seated (r, e) List.mem_cons_self)).1
      have hone := recordAt?_settle crud e hc hr (Memo.slot crud.side crud.type key)
      simp only [Memo.slot_inj, if_neg hfirst] at hone
      have hinputs : (∃ x ∈ (r, e) :: rs.zip es, x.1.key = key) ↔
          r.key = key ∨ ∃ x ∈ rs.zip es, x.1.key = key := List.exists_mem_cons_iff ..
      refine (ih (crud.calm_settle e hc hr).sound (h.tail hc) hrest).trans ?_
      by_cases hinput : key = r.key
      · rw [if_pos ⟨hinput, hinput ▸ hheld⟩] at hone
        rw [hone, ite_self, List.zip_cons_cons, if_pos (hinputs.mpr (Or.inl hinput.symm))]
      · rw [if_neg fun hleft => hinput hleft.1] at hone
        rw [hone, List.zip_cons_cons,
          if_congr (hinputs.trans (or_iff_right (Ne.symm hinput))) rfl rfl]

/-- **A record** that was not reserved for the batch, and is not found under the key of one of its
entities, keeps what it holds. -/
theorem entity?_settleAll_of_ne (hc : c.Sound) (h : crud.Paired c (rs.zip es)) {k : Handle}
    (hreserved : ∀ x ∈ rs.zip es, k.place ≠ x.1.record.place)
    (hfound : ∀ x ∈ rs.zip es, ∀ h', c.memo.find? crud.side crud.type (crud.keyOf x.2) = some h' →
      k.place ≠ h'.place) :
    (crud.settleAll rs es c).2.entity? k = c.entity? k := by
  induction rs generalizing es c with
  | nil => cases es <;> rfl
  | cons r rs ih =>
    cases es with
    | nil => rfl
    | cons e es =>
      obtain ⟨hfirst, hrest⟩ := List.forall_mem_cons.mp hreserved
      obtain ⟨hfirst', hrest'⟩ := List.forall_mem_cons.mp hfound
      have hr := h.holds_head hc
      have hheld : k.place ≠ (crud.settle r e c).1.place := by
        rw [fst_settle]
        cases hdest : c.memo.find? crud.side crud.type (crud.keyOf e) with
        | some h' => exact hfirst' h' hdest
        | none => exact hfirst
      have hone : (crud.settle r e c).2.entity? k = c.entity? k :=
        (entity?_settle crud e hc hr k).trans
          (if_neg fun hor => hor.elim hheld fun hand => hfirst hand.2)
      refine (ih (crud.calm_settle e hc hr).sound (h.tail hc) hrest fun x hx h' hh => ?_).trans hone
      -- what is found under the key of a later entity was found there before
      have hne := (List.pairwise_cons.mp h.entities).1 x hx
      rw [find?_settle crud e hc hr, if_neg hne.symm] at hh
      split_ifs at hh
      exact hrest' x hx h' hh

/-- **The record reserved for an input** ends with the entity in the input's place. -/
theorem entity?_settleAll (hc : Housed [] c) (h : crud.Paired c (rs.zip es)) :
    ∀ x ∈ rs.zip es, (crud.settleAll rs es c).2.entity? x.1.record = some x.2 := by
  induction rs generalizing es c with
  | nil => exact fun x hx => absurd hx (by simp)
  | cons r rs ih =>
    cases es with
    | nil => exact fun x hx => absurd hx (by simp)
    | cons e es =>
      have hr := h.holds_head hc.sound
      have hseat := h.seated (r, e) List.mem_cons_self
      refine List.forall_mem_cons.mpr ⟨?_, ih (h.housed_tail hc) (h.tail hc.sound)⟩
      have hone : (crud.settle r e c).2.entity? r.record = some e := by
        rw [entity?_settle_of_seated hc.sound hr fun _ => hseat]
        exact if_pos (Or.inr rfl)
      refine (entity?_settleAll_of_ne (crud.calm_settle e hc.sound hr).sound (h.tail hc.sound)
        (fun y hy hplace => ?_) fun y hy h' hh hplace => ?_).trans hone
      · have hseat' := h.seated y (List.mem_cons_of_mem _ hy)
        exact (List.pairwise_cons.mp h.inputs).1 y hy (hc.find?_inj hseat hseat' hplace)
      · -- the record has left its slot, and no later entity has its new key
        have hne := (List.pairwise_cons.mp h.entities).1 y hy
        rw [find?_settle crud e hc.sound hr, if_neg hne.symm] at hh
        split_ifs at hh with hleft
        have hkey := hc.find?_inj hseat hh hplace
        exact hleft ⟨hkey.symm, hkey ▸ hseat⟩

end Paired

end Crud

end Reconcile
