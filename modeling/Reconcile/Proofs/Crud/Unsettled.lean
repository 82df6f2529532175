import Reconcile.Proofs.Crud.Merged

/-!
# Answers that settle no reservation

A creation fills the vacant slots of its inputs before the backend is asked, and counts on settling
each reservation when the answer is there. Two answers settle none of them.

* **The empty answer** is to mean the inputs as they are, but leaves the records as they were. A
  record that was made for a key holds the first input of the key, and one that was found holds what
  it held; had the backend answered with the inputs, each would hold the last input that goes into
  it. So the two answers come to the same exactly when the last input is already there
  (`Crud.create_as_is_iff`).
* **An answer of another length** is merged without regard to the reservations. So an input in a
  vacant slot stays there, whether it is answered or not (`Crud.create_unanswered_iff`).

Both rest on what a creation parks in a vacant slot, which is told by one induction over the inputs
(`Crud.parked_of_vacant`).
-/

namespace Reconcile

namespace Crud

open Cache

variable {σ α : Type} {crud : Crud α} {c c₂ : Cache α}

/-! ### What is parked in a vacant slot -/

/-- What a creation parks under a key that was vacant: a new record, which is found under no other
key and holds the first input of the key. -/
structure Parked (crud : Crud α) (c : Cache α) (es : List α) (key : String) (h : Handle) : Prop
    where
  new : ¬ c.Has h
  alone : ∀ {key' h'}, (crud.reserveAll es c).2.memo.find? crud.side crud.type key' = some h' →
    h'.place = h.place → key' = key
  holds : (crud.reserveAll es c).2.entity? h = es.find? fun e => crud.keyOf e = key

namespace Parked

variable {e : α} {es : List α} {key : String} {h : Handle}

/-- An input before it whose key was taken parks nothing. -/
theorem cons_of_some {k : Handle}
    (hfirst : c.memo.find? crud.side crud.type (crud.keyOf e) = some k)
    (hne : crud.keyOf e ≠ key) (hrest : crud.Parked c es key h) :
    crud.Parked c (e :: es) key h := by
  constructor
  · exact hrest.new
  · rw [reserveAll_cons_of_some crud hfirst]
    exact hrest.alone
  · rw [reserveAll_cons_of_some crud hfirst, List.find?_cons_of_neg (by simpa using hne)]
    exact hrest.holds

/-- An input before it of another vacant key parks a record of its own. -/
theorem cons_of_none (hfirst : c.memo.find? crud.side crud.type (crud.keyOf e) = none)
    (hne : crud.keyOf e ≠ key)
    (hrest : crud.Parked (c.merge crud.side crud.type (crud.keyOf e) e).2 es key h) :
    crud.Parked c (e :: es) key h := by
  constructor
  · exact fun hh => hrest.new (hh.mergeInto _ _ _ e)
  · rw [reserveAll_cons_of_none crud hfirst]
    exact hrest.alone
  · rw [reserveAll_cons_of_none crud hfirst, List.find?_cons_of_neg (by simpa using hne)]
    exact hrest.holds

/-- The first input of a vacant key parks the next record there, if the inputs after it park new
records only. -/
theorem head (hc : c.Sound) (hfirst : c.memo.find? crud.side crud.type (crud.keyOf e) = none)
    (hlater : ∀ {key' h'},
      (c.merge crud.side crud.type (crud.keyOf e) e).2.memo.find? crud.side crud.type key' = none →
      (crud.reserveAll (e :: es) c).2.memo.find? crud.side crud.type key' = some h' →
        ¬ (c.merge crud.side crud.type (crud.keyOf e) e).2.Has h') :
    crud.Parked c (e :: es) (crud.keyOf e) (c.merge crud.side crud.type (crud.keyOf e) e).1 := by
  have hnone := admits_none (c := c) crud.type
  have hnext : (c.merge crud.side crud.type (crud.keyOf e) e).1 = c.nextRecord crud.type := by
    rw [merge, fst_mergeInto, hfirst, Option.getD_none, Option.getD_none]
  have hhas := hc.has_merged crud.side crud.type (crud.keyOf e) e hnone
  constructor
  · rw [hnext]
    exact Nat.lt_irrefl _
  · intro key' h' hfound' hplace
    by_contra hne
    have hsame := (find?_mergeInto crud.side crud.type (crud.keyOf e) e hnone key').trans
      (if_neg hne)
    -- a record that was there is before the next one, and a later one is after it
    cases hbefore : c.memo.find? crud.side crud.type key' with
    | some k =>
      have hk := crud.find?_reserveAll_of_some (e :: es) hbefore
      obtain rfl := Option.some.inj (hk.symm.trans hfound')
      rw [hnext] at hplace
      exact Nat.ne_of_lt (hc.has (find?_eq_some.mp hbefore).1) hplace
    | none =>
      refine hlater (hsame.trans hbefore) hfound' ?_
      rw [Has, hplace]
      exact hhas
  · rw [reserveAll_cons_of_none crud hfirst, List.find?_cons_of_pos (by simp)]
    exact (entity?_reserveAll (hc.mergeInto _ _ _ e hnone) es hhas).trans
      (entity?_merged hc _ _ hnone e)

end Parked

/-- **What is found under a vacant key** while the backend of a creation is asked, has been parked
there. -/
theorem parked_of_vacant (hc : c.Sound) (es : List α) {key : String} {h : Handle}
    (hvacant : c.memo.find? crud.side crud.type key = none)
    (hfound : (crud.reserveAll es c).2.memo.find? crud.side crud.type key = some h) :
    crud.Parked c es key h := by
  induction es generalizing c key h with
  | nil =>
    rw [reserveAll, hvacant] at hfound
    cases hfound
  | cons e es ih =>
    cases hfirst : c.memo.find? crud.side crud.type (crud.keyOf e) with
    | some k =>
      rw [reserveAll_cons_of_some crud hfirst] at hfound
      refine (ih hc hvacant hfound).cons_of_some hfirst ?_
      rintro rfl
      rw [hvacant] at hfirst
      cases hfirst
    | none =>
      have hnone := admits_none (c := c) crud.type
      have hsound := hc.mergeInto crud.side crud.type (crud.keyOf e) e hnone
      have hmerged := find?_mergeInto crud.side crud.type (crud.keyOf e) e hnone
      by_cases hkey : crud.keyOf e = key
      · subst hkey
        rw [reserveAll_cons_of_none crud hfirst] at hfound
        have hhere := crud.find?_reserveAll_of_some es ((hmerged _).trans (if_pos rfl))
        obtain rfl := Option.some.inj (hhere.symm.trans hfound)
        refine Parked.head hc hfirst fun hvacant' hfound' => ?_
        rw [reserveAll_cons_of_none crud hfirst] at hfound'
        exact (ih hsound hvacant' hfound').new
      · rw [reserveAll_cons_of_none crud hfirst] at hfound
        have hvacant' := ((hmerged key).trans (if_neg (Ne.symm hkey))).trans hvacant
        exact (ih hsound hvacant' hfound).cons_of_none hfirst hkey

/-! ### Filling the records of a batch -/

/-- Fills the record of each reservation with the entity beside it, one after the other. -/
def fillAll : List (Reserved × α) → Cache α → Cache α
  | [], c => c
  | x :: batch, c => fillAll batch (c.fill x.1.record x.2)

/-- The member of a batch is the last one that goes into its record. -/
def IsLast (batch : List (Reserved × α)) (x : Reserved × α) : Prop :=
  ∃ rest, x :: rest <:+ batch ∧ ∀ y ∈ rest, y.1.record.place ≠ x.1.record.place

section FillAll

variable {batch : List (Reserved × α)} {x y : Reserved × α}

@[simp]
theorem isLast_nil (x : Reserved × α) : ¬ IsLast [] x := by
  rintro ⟨rest, hsuffix, -⟩
  exact absurd (List.suffix_nil.mp hsuffix) (List.cons_ne_nil x rest)

@[simp]
theorem isLast_cons : IsLast (y :: batch) x ↔
    (x = y ∧ ∀ z ∈ batch, z.1.record.place ≠ x.1.record.place) ∨ IsLast batch x := by
  unfold IsLast
  simp only [List.suffix_cons_iff, List.cons.injEq, or_and_right, exists_or]
  refine or_congr_left ⟨?_, ?_⟩
  · rintro ⟨rest, ⟨rfl, rfl⟩, hrest⟩
    exact ⟨rfl, hrest⟩
  · rintro ⟨rfl, hrest⟩
    exact ⟨batch, ⟨rfl, rfl⟩, hrest⟩

theorem IsLast.mem (hx : IsLast batch x) : x ∈ batch := by
  obtain ⟨rest, hsuffix, -⟩ := hx
  exact hsuffix.subset List.mem_cons_self

/-- Some member goes last into a record that any goes into. -/
theorem exists_isLast {k : Handle} (hin : ∃ y ∈ batch, y.1.record.place = k.place) :
    ∃ x, IsLast batch x ∧ x.1.record.place = k.place := by
  induction batch with
  | nil =>
    obtain ⟨y, hy, -⟩ := hin
    exact absurd hy List.not_mem_nil
  | cons y batch ih =>
    by_cases hlater : ∃ y ∈ batch, y.1.record.place = k.place
    · obtain ⟨x, hx, hplace⟩ := ih hlater
      exact ⟨x, isLast_cons.mpr (Or.inr hx), hplace⟩
    · have hplace : y.1.record.place = k.place :=
        ((List.exists_mem_cons_iff ..).mp hin).resolve_right hlater
      refine ⟨y, isLast_cons.mpr (Or.inl ⟨rfl, fun z hz hsame => ?_⟩), hplace⟩
      exact hlater ⟨z, hz, hsame.trans hplace⟩

@[simp]
theorem recordAt?_fillAll (batch : List (Reserved × α)) (c : Cache α) (s : Slot) :
    (fillAll batch c).recordAt? s = c.recordAt? s := by
  induction batch generalizing c with
  | nil => rfl
  | cons x batch ih => exact ih _

/-- Filling the records of a batch leaves the other records. -/
theorem entity?_fillAll_of_ne (hhas : ∀ x ∈ batch, c.Has x.1.record) {k : Handle}
    (hne : ∀ x ∈ batch, x.1.record.place ≠ k.place) :
    (fillAll batch c).entity? k = c.entity? k := by
  induction batch generalizing c with
  | nil => rfl
  | cons x batch ih =>
    obtain ⟨hx, hhas⟩ := List.forall_mem_cons.mp hhas
    obtain ⟨hfirst, hne⟩ := List.forall_mem_cons.mp hne
    exact (ih (fun y hy => (has_fill ..).mpr (hhas y hy)) hne).trans
      ((entity?_fill hx x.2 k).trans (if_neg (Ne.symm hfirst)))

/-- **A record of a batch** ends with the entity that goes into it last. -/
theorem entity?_fillAll_of_isLast (hhas : ∀ x ∈ batch, c.Has x.1.record) (hx : IsLast batch x) :
    (fillAll batch c).entity? x.1.record = some x.2 := by
  induction batch generalizing c with
  | nil => exact absurd hx (isLast_nil x)
  | cons y batch ih =>
    obtain ⟨hy, hhas⟩ := List.forall_mem_cons.mp hhas
    have hhas' : ∀ z ∈ batch, (c.fill y.1.record y.2).Has z.1.record := fun z hz =>
      (has_fill ..).mpr (hhas z hz)
    rcases isLast_cons.mp hx with ⟨rfl, hlater⟩ | hx
    · exact (entity?_fillAll_of_ne hhas' hlater).trans ((entity?_fill hy x.2 _).trans (if_pos rfl))
    · exact ih hhas' hx

/-- Filling the records of a batch changes nothing that is held exactly when every record holds
already what goes into it last. -/
theorem fillAll_unchanged_iff (hhas : ∀ x ∈ batch, c.Has x.1.record) :
    (∀ k, (fillAll batch c).entity? k = c.entity? k) ↔
      ∀ x, IsLast batch x → c.entity? x.1.record = some x.2 := by
  constructor
  · exact fun hall x hx => (hall x.1.record).symm.trans (entity?_fillAll_of_isLast hhas hx)
  · intro hheld k
    by_cases hin : ∃ y ∈ batch, y.1.record.place = k.place
    · obtain ⟨x, hx, hplace⟩ := exists_isLast hin
      calc (fillAll batch c).entity? k
          = (fillAll batch c).entity? x.1.record := entity?_congr _ hplace.symm
        _ = some x.2 := entity?_fillAll_of_isLast hhas hx
        _ = c.entity? x.1.record := (hheld x hx).symm
        _ = c.entity? k := entity?_congr _ hplace
    · exact entity?_fillAll_of_ne hhas fun x hx hplace => hin ⟨x, hx, hplace⟩

end FillAll

/-! ### Inputs that come back as they are -/

/-- Settling an entity of the key that its record was reserved under, and is found under, fills the
record. -/
theorem settle_of_own {r : Reserved} {e : α} (hkey : crud.keyOf e = r.key)
    (hfound : c.memo.find? crud.side crud.type r.key = some r.record) :
    crud.settle r e c = (r.record, c.fill r.record e) := by
  simp [settle, mergeInto, settleSlot, hkey, hfound]

/-- Settling the inputs themselves fills the records that were reserved for them. -/
theorem settleAll_of_own {rs : List Reserved} {es : List α}
    (hseated : ∀ r ∈ rs, c.memo.find? crud.side crud.type r.key = some r.record)
    (hown : es.map crud.keyOf = rs.map (·.key)) :
    crud.settleAll rs es c = (rs.map (·.record), fillAll (rs.zip es) c) := by
  induction rs generalizing es c with
  | nil => cases es <;> rfl
  | cons r rs ih =>
    cases es with
    | nil => cases hown
    | cons e es =>
      obtain ⟨hr, hseated⟩ := List.forall_mem_cons.mp hseated
      obtain ⟨hkey, hown⟩ := List.cons.inj hown
      have hrest := ih (c := c.fill r.record e) hseated hown
      simp only [settleAll, settle_of_own hkey hr, hrest]
      rfl

section AsIs

variable {inputs : List α}

/-- What the records hold while the backend is asked: those that were found hold what they held, and
those that were made hold the first input of their key. -/
theorem entity?_of_reserved (hc : c.Sound) (inputs : List α) {r : Reserved}
    (hr : r ∈ (crud.reserveAll inputs c).1) :
    (crud.reserveAll inputs c).2.entity? r.record =
      (c.memo.find? crud.side crud.type r.key).elim
        (inputs.find? fun e => crud.keyOf e = r.key) c.entity? := by
  have hfound := crud.find?_reserveAll_of_mem inputs c r hr
  cases hbefore : c.memo.find? crud.side crud.type r.key with
  | some h =>
    obtain rfl := Option.some.inj ((crud.find?_reserveAll_of_some inputs hbefore).symm.trans hfound)
    exact entity?_reserveAll hc inputs (hc.has (find?_eq_some.mp hbefore).1)
  | none => exact (parked_of_vacant hc inputs hbefore hfound).holds

/-- **The empty answer.** Inputs are created by two backends that do the same to the cache, where
they may look things up. One answers with nothing, the other with the inputs. Both creations return
the records that were reserved, and leave the same records in the slots; but the first leaves what
they hold, and the second leaves the last input that goes into each. So the records hold the same
exactly when each held that input already, as the backends left it. Backends that do nothing to the
cache leave what was held before in the records that were found, and the first input of its key in a
record that was made. -/
theorem create_as_is_iff (silent echoing : Backend (Work σ α) α) (hc : c.Sound) (hc₂ : c₂.Sound)
    (hbackend : crud.Undisturbed (crud.reserveAll inputs c).2 c₂) {st st' : σ}
    (hsilent : ((silent.create inputs).run (crud.reserveAll inputs c).2).run st =
      ((.ok [], c₂), st'))
    (hechoing : ((echoing.create inputs).run (crud.reserveAll inputs c).2).run st =
      ((.ok inputs, c₂), st')) :
    let reserved := (crud.reserveAll inputs c).1
    let records := reserved.map (·.record)
    ((crud.create silent inputs).run c).run st = ((.ok records, c₂), st') ∧
    ∃ c', ((crud.create echoing inputs).run c).run st = ((.ok records, c'), st') ∧
      (∀ s, c'.recordAt? s = c₂.recordAt? s) ∧
      (∀ x, IsLast (reserved.zip inputs) x → c'.entity? x.1.record = some x.2) ∧
      (((∀ h ∈ records, c'.entity? h = c₂.entity? h) ∧
          ∀ s h, c₂.recordAt? s = some h → c'.entity? h = c₂.entity? h) ↔
        ∀ x, IsLast (reserved.zip inputs) x → c₂.entity? x.1.record = some x.2) ∧
      (c₂ = (crud.reserveAll inputs c).2 → ∀ r ∈ reserved, c₂.entity? r.record =
        (c.memo.find? crud.side crud.type r.key).elim
          (inputs.find? fun e => crud.keyOf e = r.key) c.entity?) := by
  intro reserved records
  have hslot : ∀ r ∈ reserved,
      c₂.recordAt? (Memo.slot crud.side crud.type r.key) = some r.record := fun r hr =>
    (find?_eq_some.mp (hbackend.seated r hr)).1
  have hhas : ∀ x ∈ reserved.zip inputs, c₂.Has x.1.record := fun x hx =>
    hc₂.has (hslot x.1 (List.of_mem_zip hx).1)
  have hlast : ∀ x, IsLast (reserved.zip inputs) x →
      (fillAll (reserved.zip inputs) c₂).entity? x.1.record = some x.2 := fun x hx =>
    entity?_fillAll_of_isLast hhas hx
  have hsettled := settleAll_of_own hbackend.seated (crud.map_key_reserveAll inputs c).symm
  refine ⟨crud.run_create_ok silent hsilent, fillAll (reserved.zip inputs) c₂, ?_,
    recordAt?_fillAll _ c₂, hlast, ⟨fun hsame x hx => ?_, fun hheld => ?_⟩, ?_⟩
  · rw [run_create_of_length crud echoing rfl hechoing, hsettled]
  · exact (hsame.2 _ _ (hslot x.1 (List.of_mem_zip hx.mem).1)).symm.trans (hlast x hx)
  · have hall := (fillAll_unchanged_iff hhas).mpr hheld
    exact ⟨fun h _ => hall h, fun _ h _ => hall h⟩
  · rintro rfl r hr
    exact entity?_of_reserved hc inputs hr

/-- The record of a key that was found holds the second of the two inputs of the key already, and a
new record is made for the third: the empty answer comes to the same as the inputs. -/
theorem create_as_is_iff_held :
    let inputs := [("a", 5), ("a", 1), ("c", 3)]
    let h := fun place => (⟨shelfCrud.type, place⟩ : Handle)
    let c₂ := (shelfCrud.reserveAll inputs halfRead).2
    ((shelfCrud.create (finding []) inputs).run halfRead).run () =
        ((.ok [h 0, h 0, h 2], c₂), ()) ∧
      ∃ c', ((shelfCrud.create (finding inputs) inputs).run halfRead).run () =
          ((.ok [h 0, h 0, h 2], c'), ()) ∧
        ∀ s k, c₂.recordAt? s = some k → c'.entity? k = c₂.entity? k := by
  intro inputs h c₂
  have hsound := (shelfCrud.calm_reserveAll inputs sound_halfRead).sound
  obtain ⟨hsilent, c', hechoing, -, -, hiff, -⟩ := create_as_is_iff (finding []) (finding inputs)
    sound_halfRead hsound (Undisturbed.refl shelfCrud c₂)
    (rfl : (((finding []).create inputs).run _).run () = _) rfl
  refine ⟨hsilent, c', hechoing, (hiff.mpr fun x hx => ?_).2⟩
  have hbatch : (shelfCrud.reserveAll inputs halfRead).1.zip inputs =
      [(⟨"a", h 0, false⟩, ("a", 5)), (⟨"a", h 0, false⟩, ("a", 1)),
        (⟨"c", h 2, true⟩, ("c", 3))] := by decide
  rw [hbatch] at hx
  simp only [isLast_cons, isLast_nil, or_false] at hx
  rcases hx with ⟨rfl, hlater⟩ | ⟨rfl, -⟩ | ⟨rfl, -⟩
  · exact (hlater _ List.mem_cons_self rfl).elim
  · decide
  · decide

/-- **An input whose key was found** is not taken as it is: the record that the empty answer returns
for it holds what it held. -/
theorem create_as_is_ignored :
    let inputs := [("a", 2)]
    ∃ h c' c'', ((shelfCrud.create (finding []) inputs).run halfRead).run () =
        ((.ok [h], c'), ()) ∧
      ((shelfCrud.create (finding inputs) inputs).run halfRead).run () = ((.ok [h], c''), ()) ∧
      c'.entity? h = some ("a", 1) ∧ c''.entity? h = some ("a", 2) := by
  intro inputs
  exact ⟨⟨shelfCrud.type, 0⟩, _, _, rfl, rfl, by decide, by decide⟩

end AsIs

/-! ### Answers of another length -/

/-- What is found under the keys when slots have been reserved. -/
theorem isSome_find?_reserveAll (es : List α) (c : Cache α) (key : String) :
    ((crud.reserveAll es c).2.memo.find? crud.side crud.type key).isSome ↔
      key ∈ es.map crud.keyOf ∨ (c.memo.find? crud.side crud.type key).isSome := by
  by_cases hin : key ∈ es.map crud.keyOf
  · have hreserved := hin
    rw [← crud.map_key_reserveAll es c] at hreserved
    obtain ⟨r, hr, rfl⟩ := List.mem_map.mp hreserved
    rw [crud.find?_reserveAll_of_mem es c r hr]
    exact iff_of_true rfl (Or.inl hin)
  · rw [crud.find?_reserveAll_of_new es c hin, or_iff_right hin]

section Unanswered

variable {inputs created : List α}

/-- What was parked under a key stays there while entities of other keys are merged, and keeps what
it holds. -/
theorem entity?_mergeAll_of_parked (hc : c.Sound) {key : String} {h : Handle}
    (hvacant : c.memo.find? crud.side crud.type key = none)
    (hfound : (crud.reserveAll inputs c).2.memo.find? crud.side crud.type key = some h)
    (hnew : key ∉ created.map crud.keyOf) :
    (crud.mergeAll created (crud.reserveAll inputs c).2).2.entity? h =
      inputs.find? fun e => crud.keyOf e = key := by
  have hsound := (crud.calm_reserveAll inputs hc).sound
  have hparked := parked_of_vacant hc inputs hvacant hfound
  refine (crud.entity?_mergeAll_of_ne created hsound (hsound.has (find?_eq_some.mp hfound).1)
    fun e he h' hh hplace => ?_).trans hparked.holds
  -- the record would be found under the key of the entity as well
  exact hnew (hparked.alone hh hplace.symm ▸ List.mem_map_of_mem he)

/-- **An answer of another length.** Inputs are created, and the backend does nothing to the cache
and answers with some entities, but not as many as inputs. Then the keys that are found are those
that were found before and those of the inputs and the entities. A read of a key that was vacant and
that no entity has is answered with the first input of the key. So the keys that are found anew are
all keys of entities exactly when every input has the key of an entity, or one that was found
before. -/
theorem create_unanswered_iff (backend : Backend (Work σ α) α) (hc : c.Sound) (hne : created ≠ [])
    (hlength : created.length ≠ inputs.length) {st st' : σ}
    (hrun : ((backend.create inputs).run (crud.reserveAll inputs c).2).run st =
      ((.ok created, (crud.reserveAll inputs c).2), st')) :
    let found := fun (c : Cache α) key => (c.memo.find? crud.side crud.type key).isSome
    ∃ records c', ((crud.create backend inputs).run c).run st = ((.ok records, c'), st') ∧
      (∀ s, (∀ key, s ≠ Memo.slot crud.side crud.type key) → c'.recordAt? s = c.recordAt? s) ∧
      (∀ key, found c' key ↔
        key ∈ inputs.map crud.keyOf ∨ key ∈ created.map crud.keyOf ∨ found c key) ∧
      (∀ key e, ¬ found c key → key ∉ created.map crud.keyOf →
        (inputs.find? fun e => crud.keyOf e = key) = some e →
        ∃ h, crud.beginRead key c' = (.known h, c') ∧ c'.entity? h = some e) ∧
      ((∀ key, ¬ found c key → found c' key → key ∈ created.map crud.keyOf) ↔
        ∀ e ∈ inputs, ¬ found c (crud.keyOf e) → crud.keyOf e ∈ created.map crud.keyOf) := by
  intro found
  have hkeys : ∀ key, found (crud.mergeAll created (crud.reserveAll inputs c).2).2 key ↔
      key ∈ inputs.map crud.keyOf ∨ key ∈ created.map crud.keyOf ∨ found c key := fun key => by
    refine (isSome_find?_mergeAll created _ key).trans ?_
    rw [isSome_find?_reserveAll inputs c key, or_left_comm]
  have hcreate := crud.run_create_ok backend hrun
  rw [crud.finishCreate_of_ne hne (by rwa [crud.length_reserveAll])] at hcreate
  have hkeeps := (keeps_reserveAll inputs hc).trans
    (keeps_mergeAll created (crud.calm_reserveAll inputs hc).sound)
  refine ⟨_, _, hcreate, fun s hother => hkeeps.recordAt?_of_other hother id, hkeys,
    fun key e hvacant hnew hfirst => ?_, fun hall e he hvacant => ?_,
    fun hall key hvacant hfound => ?_⟩
  · have hin : key ∈ inputs.map crud.keyOf := by
      have hkey : crud.keyOf e = key := by simpa using List.find?_some hfirst
      exact hkey ▸ List.mem_map_of_mem (List.mem_of_find?_eq_some hfirst)
    obtain ⟨h, hfound⟩ := Option.isSome_iff_exists.mp
      ((isSome_find?_reserveAll inputs c key).mpr (Or.inl hin))
    refine ⟨h, crud.beginRead_of_some ?_, ?_⟩
    · exact (crud.find?_mergeAll_of_new created _ hnew).trans hfound
    · rw [entity?_mergeAll_of_parked hc (Option.not_isSome_iff_eq_none.mp hvacant) hfound hnew,
        hfirst]
  · exact hall _ hvacant ((hkeys _).mpr (Or.inl (List.mem_map_of_mem he)))
  · rcases (hkeys key).mp hfound with hin | hin | hbefore
    · obtain ⟨e, he, rfl⟩ := List.mem_map.mp hin
      exact hall e he hvacant
    · exact hin
    · exact absurd hbefore hvacant

/-- Four inputs, of which one has a key that was found before and two have one key, and two
entities: one with the key of an input and one with another. The key of the two inputs is found,
with the first of them, and a key that nobody has is not. -/
theorem create_unanswered_iff_repeated :
    let inputs := [("a", 2), ("c", 3), ("d", 4), ("d", 5)]
    let created := [("c", 6), ("e", 7)]
    ∃ records c', ((shelfCrud.create (finding created) inputs).run halfRead).run () =
        ((.ok records, c'), ()) ∧
      (c'.memo.find? shelfCrud.side shelfCrud.type "f").isSome = false ∧
      ∃ h, shelfCrud.beginRead "d" c' = (.known h, c') ∧ c'.entity? h = some ("d", 4) := by
  intro inputs created
  obtain ⟨records, c', hrun, -, hkeys, hparked, -⟩ := create_unanswered_iff (finding created)
    sound_halfRead (show created ≠ [] by decide) (show created.length ≠ inputs.length by decide)
    (rfl : (((finding created).create inputs).run _).run () = _)
  refine ⟨records, c', hrun, ?_, hparked "d" ("d", 4) (by decide) (by decide) rfl⟩
  exact Bool.eq_false_iff.mpr fun hfound => absurd ((hkeys "f").mp hfound) (by decide)

/-- **An input that was not answered** is found afterwards, and a read of its key is answered with
it. -/
theorem create_unanswered_found :
    let inputs := [("a", 1), ("b", 2)]
    let created := [("a", 3)]
    (created ≠ [] ∧ created.length ≠ inputs.length ∧ "b" ∉ created.map shelfCrud.keyOf ∧
      (Cache.empty : Cache (String × Nat)).memo.find? shelfCrud.side shelfCrud.type "b" = none) ∧
    ∃ h k c', ((shelfCrud.create (finding created) inputs).run Cache.empty).run () =
        ((.ok [h], c'), ()) ∧
      shelfCrud.beginRead "b" c' = (.known k, c') ∧ c'.entity? k = some ("b", 2) := by
  intro inputs created
  exact ⟨⟨by decide, by decide, by decide, rfl⟩, ⟨shelfCrud.type, 0⟩, ⟨shelfCrud.type, 1⟩, _, rfl,
    rfl, by decide⟩

end Unanswered

end Crud

end Reconcile
