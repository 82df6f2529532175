import Reconcile.Proofs.Crud.Merged

/-!
# Updated entities are merged under the keys they come back with

An update merges what its backend answers, each entity under its own key. An entity that keeps the
key of its input goes into the record that was found there, so that whoever holds it sees the
entity. But nothing is done about the key of an input whose entity comes back under another key: if
a record is found there, it stays, and holds what it held. So an update leaves the memo as a
creation does exactly when no such key is found (`Crud.update_merges_iff`).

Records in two slots are excluded, and so are entities of equal keys: then no entity of the answer
is merged into the record of another (`Crud.getElem?_mergeAll`).
-/

namespace Reconcile

namespace Crud

open Cache

variable {σ α : Type} {crud : Crud α} {c c₂ : Cache α}

/-! ### Merging lists where no record is in two slots -/

/-- Merging entities leaves the record that is found under another key. -/
theorem entity?_mergeAll_of_new (hc : Housed [] c) {es : List α} {key : String} {h : Handle}
    (hnew : key ∉ es.map crud.keyOf)
    (hfound : c.memo.find? crud.side crud.type key = some h) :
    (crud.mergeAll es c).2.entity? h = c.entity? h := by
  refine crud.entity?_mergeAll_of_ne es hc.sound (hc.sound.has (find?_eq_some.mp hfound).1)
    fun e he h' hh' hplace => hnew ?_
  exact hc.find?_inj hfound hh' hplace ▸ List.mem_map_of_mem he

/-- What has become of one entity when entities of distinct keys have been merged: its key is found
with a record that holds it, the one that was found before if there was one. -/
theorem getElem?_mergeAll (hc : Housed [] c) {es : List α} (hdistinct : (es.map crud.keyOf).Nodup)
    {i : Nat} {e : α} {r : Handle} (he : es[i]? = some e)
    (hr : (crud.mergeAll es c).1[i]? = some r) :
    (crud.mergeAll es c).2.memo.find? crud.side crud.type (crud.keyOf e) = some r ∧
      (crud.mergeAll es c).2.entity? r = some e ∧
      ∀ h, c.memo.find? crud.side crud.type (crud.keyOf e) = some h → h = r := by
  induction es generalizing c i with
  | nil => simp at he
  | cons e' es ih =>
    obtain ⟨hnew, hdistinct⟩ := List.nodup_cons.mp hdistinct
    have hnone := admits_none (c := c) crud.type
    have hmerged := find?_mergeInto crud.side crud.type (crud.keyOf e') e' hnone
    have hhoused : Housed [] (c.merge crud.side crud.type (crud.keyOf e') e').2 := hc.merge
    cases i with
    | zero =>
      cases he
      cases hr
      have hfound := (hmerged (crud.keyOf e)).trans (if_pos rfl)
      refine ⟨(crud.find?_mergeAll_of_new es _ hnew).trans hfound, ?_, fun h hh => ?_⟩
      · exact (entity?_mergeAll_of_new hhoused hnew hfound).trans
          (entity?_merged hc.sound _ _ hnone e)
      · change h = (c.merge crud.side crud.type (crud.keyOf e) e).1
        rw [merge, fst_mergeInto, hh, Option.getD_some]
    | succ i =>
      obtain ⟨hfound, hheld, hbefore⟩ := ih hhoused hdistinct he hr
      refine ⟨hfound, hheld, fun h hh => hbefore h ?_⟩
      have hne : crud.keyOf e ≠ crud.keyOf e' := fun heq =>
        hnew (heq ▸ List.mem_map_of_mem (List.mem_of_getElem? he))
      exact ((hmerged (crud.keyOf e)).trans (if_neg hne)).trans hh

/-! ### The update -/

section Update

variable {inputs updated : List α}

/-- The key of an input whose entity comes back under another key is the key of no entity. -/
theorem Answers.not_mem_of_replaced (h : crud.Answers inputs updated)
    (hinputs : (inputs.map crud.keyOf).Nodup) {x : α × α} (hx : x ∈ inputs.zip updated)
    (hne : crud.keyOf x.2 ≠ crud.keyOf x.1) : crud.keyOf x.1 ∉ updated.map crud.keyOf := by
  intro hmem
  obtain ⟨e, he, hkey⟩ := List.mem_map.mp hmem
  rw [← List.map_snd_zip (Nat.le_of_eq h.length_eq)] at he
  obtain ⟨y, hy, rfl⟩ := List.mem_map.mp he
  obtain rfl := h.eq_of_key hinputs hy hx hkey
  exact hne hkey

/-- **An update** of inputs with distinct keys, on a cache in which no record is in two slots, and
with a backend that may look things up. Each entity is found under its key, in the record that is
returned for it, which is the one that was found there before. If the entity has another key than
its input, what is found under the input's key is still found there, and the record keeps what it
held. So all records that were found under the inputs' keys hold their entities, and replaced keys
are found no longer, exactly when no key that is replaced is found when the backend answers. -/
theorem update_merges_iff (backend : Backend (Work σ α) α) (hc : Housed [] c)
    (hinputs : (inputs.map crud.keyOf).Nodup) (hanswers : crud.Answers inputs updated)
    (hbackend : crud.Undisturbed c c₂) {st st' : σ}
    (hrun : ((backend.update inputs).run c).run st = ((.ok updated, c₂), st')) :
    let find? := fun (c : Cache α) key => c.memo.find? crud.side crud.type key
    ∃ records c', ((crud.update backend inputs).run c).run st = ((.ok records, c'), st') ∧
      records.length = updated.length ∧
      (∀ (i : Nat) (e : α) (r : Handle), updated[i]? = some e → records[i]? = some r →
        find? c' (crud.keyOf e) = some r ∧ c'.entity? r = some e ∧
          ∀ h, find? c (crud.keyOf e) = some h → h = r) ∧
      (∀ x ∈ inputs.zip updated, crud.keyOf x.2 ≠ crud.keyOf x.1 →
        find? c' (crud.keyOf x.1) = find? c₂ (crud.keyOf x.1) ∧
          ∀ h, find? c (crud.keyOf x.1) = some h → c'.entity? h = c₂.entity? h) ∧
      ((∀ x ∈ inputs.zip updated,
          (∀ h, find? c (crud.keyOf x.1) = some h → c'.entity? h = some x.2) ∧
          (∃ h, find? c' (crud.keyOf x.2) = some h ∧ c'.entity? h = some x.2) ∧
          (crud.keyOf x.2 ≠ crud.keyOf x.1 → find? c' (crud.keyOf x.1) = none)) ↔
        ∀ x ∈ inputs.zip updated, crud.keyOf x.2 ≠ crud.keyOf x.1 →
          find? c₂ (crud.keyOf x.1) = none) := by
  intro find?
  have hhoused := hbackend.housed hc
  have hmerged : ∀ (i : Nat) (e : α) (r : Handle), updated[i]? = some e →
      (crud.mergeAll updated c₂).1[i]? = some r →
      find? (crud.mergeAll updated c₂).2 (crud.keyOf e) = some r ∧
        (crud.mergeAll updated c₂).2.entity? r = some e ∧
        ∀ h, find? c (crud.keyOf e) = some h → h = r := fun i e r he hr => by
    obtain ⟨hfound, hheld, hbefore⟩ := getElem?_mergeAll hhoused hanswers.distinct he hr
    exact ⟨hfound, hheld, fun h hh => hbefore h (hbackend.found hh)⟩
  have hreplaced : ∀ x ∈ inputs.zip updated, crud.keyOf x.2 ≠ crud.keyOf x.1 →
      find? (crud.mergeAll updated c₂).2 (crud.keyOf x.1) = find? c₂ (crud.keyOf x.1) ∧
        ∀ h, find? c (crud.keyOf x.1) = some h →
          (crud.mergeAll updated c₂).2.entity? h = c₂.entity? h := fun x hx hne => by
    have hnew := hanswers.not_mem_of_replaced hinputs hx hne
    exact ⟨crud.find?_mergeAll_of_new updated c₂ hnew, fun h hh =>
      entity?_mergeAll_of_new hhoused hnew (hbackend.found hh)⟩
  refine ⟨_, _, crud.run_update_ok backend hrun, length_mergeAll updated c₂, hmerged, hreplaced,
    fun hall x hx hne => ?_, fun hvacant x hx => ?_⟩
  · exact (hreplaced x hx hne).1.symm.trans ((hall x hx).2.2 hne)
  · obtain ⟨i, hi⟩ := List.mem_iff_getElem?.mp (List.of_mem_zip hx).2
    have hlt : i < (crud.mergeAll updated c₂).1.length := by
      rw [length_mergeAll]
      exact (List.getElem?_eq_some_iff.mp hi).1
    obtain ⟨hfound, hheld, hbefore⟩ := hmerged i x.2 _ hi (List.getElem?_eq_getElem hlt)
    refine ⟨fun h hh => ?_, ⟨_, hfound, hheld⟩, fun hne => ?_⟩
    · by_cases hkey : crud.keyOf x.2 = crud.keyOf x.1
      · rw [hbefore h (hkey ▸ hh)]
        exact hheld
      · have hnone := hvacant x hx hkey
        rw [show find? c₂ (crud.keyOf x.1) = some h from hbackend.found hh] at hnone
        cases hnone
    · exact (hreplaced x hx hne).1.trans (hvacant x hx hne)

/-- Two entities are updated, of which one was found before and keeps its key, and the other was not
and gets a new one. -/
theorem update_merges_iff_vacant :
    let inputs := [("a", 2), ("c", 3)]
    let updated := [("a", 5), ("d", 6)]
    let h := fun place => (⟨shelfCrud.type, place⟩ : Handle)
    halfRead.memo.find? shelfCrud.side shelfCrud.type "a" = some (h 0) ∧
      ∃ c', ((shelfCrud.update (finding updated) inputs).run halfRead).run () =
          ((.ok [h 0, h 2], c'), ()) ∧
        c'.entity? (h 0) = some ("a", 5) ∧
        c'.memo.find? shelfCrud.side shelfCrud.type "d" = some (h 2) ∧
        c'.entity? (h 2) = some ("d", 6) ∧
        c'.memo.find? shelfCrud.side shelfCrud.type "c" = none := by
  intro inputs updated h
  have hanswers : shelfCrud.Answers inputs updated := ⟨rfl, by decide, by decide⟩
  obtain ⟨records, c', hrun, -, hmerged, -, hiff⟩ := update_merges_iff (finding updated)
    housed_halfRead (by decide) hanswers (Undisturbed.refl shelfCrud halfRead)
    (rfl : (((finding updated).update inputs).run _).run () = _)
  obtain rfl : records = [h 0, h 2] := by
    have hanswer : ((shelfCrud.update (finding updated) inputs).run halfRead).run () =
        ((.ok [h 0, h 2], _), _) := rfl
    exact Except.ok.inj (congrArg (·.1.1) (hrun.symm.trans hanswer))
  have hall := hiff.mpr (by decide)
  obtain ⟨hfound, hheld, -⟩ := hmerged 1 ("d", 6) (h 2) rfl rfl
  exact ⟨by decide, c', hrun, (hall (("a", 2), ("a", 5)) (by decide)).1 (h 0) (by decide), hfound,
    hheld, (hall (("c", 3), ("d", 6)) (by decide)).2.2 (by decide)⟩

/-- **A replaced key** is still found after the update, with the record that was found there before
and the entity that it held. -/
theorem update_keeps_replaced :
    let inputs := [("a", 2)]
    let updated := [("x", 3)]
    ((inputs.map shelfCrud.keyOf).Nodup ∧ shelfCrud.Answers inputs updated) ∧
    ∃ h k c', ((shelfCrud.update (finding updated) inputs).run halfRead).run () =
        ((.ok [k], c'), ()) ∧
      halfRead.memo.find? shelfCrud.side shelfCrud.type "a" = some h ∧
      c'.memo.find? shelfCrud.side shelfCrud.type "a" = some h ∧ c'.entity? h = some ("a", 1) := by
  intro inputs updated
  exact ⟨⟨by decide, rfl, by decide, by decide⟩, ⟨shelfCrud.type, 0⟩, ⟨shelfCrud.type, 2⟩, _, rfl,
    by decide, by decide, by decide⟩

end Update

end Crud

end Reconcile
