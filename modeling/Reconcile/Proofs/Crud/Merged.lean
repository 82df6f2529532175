import Mathlib.Data.List.Pairwise
import Reconcile.Proofs.Crud.Failure
import Reconcile.Proofs.Crud.Paired
import Reconcile.Proofs.Traffic.Lookups

/-!
# Created entities are merged into what is there

An input of a creation and the entity that is created for it may each be known already, in a record
of its own. Whoever holds one of these records, or the one that was reserved for the input and that
reads inside the call have seen, has the created entity in it afterwards (`Crud.create_merges`).

The entities of one call do not get into each other's records, although settling each of them moves
and fills records under which the others are looked for: while entities are settled, what an entity
touches is found under its own key or under its input's, no other entity of the batch has a
key in common with it (`Crud.keysOf`), and no record is found under two keys.
-/

namespace Reconcile

namespace Crud

open Cache

variable {σ α : Type} {crud : Crud α} {c : Cache α}

/-! ### Batches of seated reservations -/

/-- The keys of a created entity and of its input. -/
def keysOf (crud : Crud α) (x : Reserved × α) : List String := [crud.keyOf x.2, x.1.key]

/-- A batch of created entities in which only an entity and its own input may have a key in common,
and the record that was reserved for an input is found under the input's key. -/
structure Seated (crud : Crud α) (c : Cache α) (batch : List (Reserved × α)) : Prop where
  seated : ∀ x ∈ batch, c.memo.find? crud.side crud.type x.1.key = some x.1.record
  disjoint : batch.Pairwise fun x y => (crud.keysOf x).Disjoint (crud.keysOf y)

theorem disjoint_keysOf_iff {x y : Reserved × α} :
    (crud.keysOf x).Disjoint (crud.keysOf y) ↔
      (crud.keyOf x.2 ≠ crud.keyOf y.2 ∧ crud.keyOf x.2 ≠ y.1.key) ∧
        x.1.key ≠ crud.keyOf y.2 ∧ x.1.key ≠ y.1.key := by
  simp [keysOf, List.Disjoint]

namespace Seated

variable {batch : List (Reserved × α)}

theorem unmixed (h : crud.Seated c batch) (hc : c.Sound) : crud.Unmixed c batch where
  holds x hx := holds_of_find? hc (h.seated x hx)
  distinct := h.disjoint.imp fun hxy => (disjoint_keysOf_iff.mp hxy).1.1
  apart := h.disjoint.imp fun hxy =>
    ⟨(disjoint_keysOf_iff.mp hxy).1.2, (disjoint_keysOf_iff.mp hxy).2.1.symm⟩
  seated x hx _ := h.seated x hx

theorem paired (h : crud.Seated c batch) : crud.Paired c batch where
  seated := h.seated
  inputs := h.disjoint.imp fun hxy => (disjoint_keysOf_iff.mp hxy).2.2
  entities := h.disjoint.imp fun hxy => (disjoint_keysOf_iff.mp hxy).1.1

/-- Two members of the batch that have a key in common are the same. -/
theorem eq_of_common (h : crud.Seated c batch) {x y : Reserved × α} (hx : x ∈ batch)
    (hy : y ∈ batch) {key : String} (hkx : key ∈ crud.keysOf x) (hky : key ∈ crud.keysOf y) :
    x = y := by
  have : Std.Symm fun x y => (crud.keysOf x).Disjoint (crud.keysOf y) :=
    ⟨fun _ _ hdisjoint _ hl hr => hdisjoint hr hl⟩
  by_contra hne
  exact h.disjoint.forall hx hy hne hkx hky

/-- What an entity touches is found under its own key or under its input's. -/
theorem exists_key_of_touches (h : crud.Seated c batch) {x : Reserved × α} (hx : x ∈ batch)
    {k : Handle} (hk : crud.Touches c k x) :
    ∃ key ∈ crud.keysOf x, ∃ h', c.memo.find? crud.side crud.type key = some h' ∧
      k.place = h'.place := by
  have hseated := h.seated x hx
  rcases hk with hk | hk
  · cases hfound : c.memo.find? crud.side crud.type (crud.keyOf x.2) with
    | some h' =>
      rw [destination, hfound, Option.getD_some] at hk
      exact ⟨_, List.mem_cons_self, h', hfound, hk⟩
    | none =>
      rw [destination, hfound, Option.getD_none] at hk
      exact ⟨_, List.mem_cons_of_mem _ (List.mem_singleton_self _), _, hseated, hk⟩
  · exact ⟨_, List.mem_cons_of_mem _ (List.mem_singleton_self _), _, hseated, hk⟩

/-- No record is touched by two entities. -/
theorem eq_of_touches (h : crud.Seated c batch) (hc : Housed [] c) {x y : Reserved × α}
    (hx : x ∈ batch) (hy : y ∈ batch) {k : Handle} (hkx : crud.Touches c k x)
    (hky : crud.Touches c k y) : x = y := by
  obtain ⟨key, hkey, h₁, hfound, hplace⟩ := h.exists_key_of_touches hx hkx
  obtain ⟨key', hkey', h₂, hfound', hplace'⟩ := h.exists_key_of_touches hy hky
  obtain rfl : key = key' := hc.find?_inj hfound hfound' (hplace.symm.trans hplace')
  exact h.eq_of_common hx hy hkey hkey'

variable {rs : List Reserved} {es : List α}

/-- **What an entity touches** holds it when the whole batch has been settled. -/
theorem entity?_of_touches (h : crud.Seated c (rs.zip es)) (hc : Housed [] c)
    {x : Reserved × α} (hx : x ∈ rs.zip es) {k : Handle} (hk : crud.Touches c k x) :
    (crud.settleAll rs es c).2.entity? k = some x.2 := by
  rcases entity?_settleAll hc.sound (h.unmixed hc.sound) k with ⟨y, hy, hky, he⟩ | ⟨hnone, -⟩
  · rw [h.eq_of_touches hc hx hy hk hky]
    exact he
  · exact absurd hk (hnone x hx)

/-- **A key that was replaced** has a vacant slot when the whole batch has been settled. -/
theorem recordAt?_of_replaced (h : crud.Seated c (rs.zip es)) (hc : c.Sound)
    {x : Reserved × α} (hx : x ∈ rs.zip es) (hne : crud.keyOf x.2 ≠ x.1.key) :
    (crud.settleAll rs es c).2.recordAt? (Memo.slot crud.side crud.type x.1.key) = none := by
  -- no entity has the key, neither that of this input nor another
  refine (h.paired.recordAt?_settleAll_of_ne hc fun y hy hkey => hne ?_).trans
    (if_pos ⟨x, hx, rfl⟩)
  obtain rfl := h.eq_of_common hx hy (List.mem_cons_of_mem _ (List.mem_singleton_self _))
    (hkey ▸ List.mem_cons_self)
  exact hkey.symm

/-- What has become of one entity when the whole batch has been settled. -/
theorem getElem?_settleAll (h : crud.Seated c (rs.zip es)) (hc : Housed [] c) {i : Nat}
    {r : Reserved} {e : α} {k : Handle} (hr : rs[i]? = some r) (he : es[i]? = some e)
    (hk : (crud.settleAll rs es c).1[i]? = some k) :
    let c' := (crud.settleAll rs es c).2
    (∀ h, c.memo.find? crud.side crud.type (crud.keyOf e) = some h → h = k) ∧
      c'.entity? r.record = some e ∧ c'.entity? k = some e ∧
      c'.recordAt? (Memo.slot crud.side crud.type (crud.keyOf e)) = some k ∧
      (crud.keyOf e ≠ r.key →
        c'.recordAt? (Memo.slot crud.side crud.type r.key) = none) := by
  have hunmixed := h.unmixed hc.sound
  have hx : (rs.zip es)[i]? = some (r, e) := List.getElem?_zip_eq_some.mpr ⟨hr, he⟩
  have hmem := List.mem_of_getElem? hx
  obtain rfl : crud.destination c (r, e) = k := by
    rw [fst_settleAll hc.sound hunmixed, List.getElem?_map, hx] at hk
    exact Option.some.inj hk
  refine ⟨fun h' hfound => ?_, h.entity?_of_touches hc hmem (.inr rfl),
    h.entity?_of_touches hc hmem (.inl rfl),
    (find?_eq_some.mp (find?_settleAll hc.sound hunmixed _ hmem)).1,
    h.recordAt?_of_replaced hc.sound hmem⟩
  rw [destination, hfound, Option.getD_some]

end Seated

/-! ### The answer of a backend -/

/-- What a backend answers to a creation: one entity for each input, all of different keys. An
entity has the key of its own input, or else a key that no input has. -/
structure Answers (crud : Crud α) (inputs created : List α) : Prop where
  length_eq : created.length = inputs.length
  distinct : (created.map crud.keyOf).Nodup
  own_or_new : ∀ x ∈ inputs.zip created,
    crud.keyOf x.2 = crud.keyOf x.1 ∨ crud.keyOf x.2 ∉ inputs.map crud.keyOf

variable {inputs created : List α}

/-- A reservation and a created entity belong to an input with the key of the reservation. -/
theorem exists_input (c : Cache α) {x : Reserved × α}
    (hx : x ∈ (crud.reserveAll inputs c).1.zip created) :
    ∃ input, (input, x.2) ∈ inputs.zip created ∧ crud.keyOf input = x.1.key := by
  have hkeyed : (x.1.key, x.2) ∈ (inputs.map crud.keyOf).zip created := by
    rw [← crud.map_key_reserveAll inputs c, List.zip_map_left]
    exact List.mem_map.mpr ⟨x, hx, rfl⟩
  rw [List.zip_map_left] at hkeyed
  obtain ⟨y, hy, heq⟩ := List.mem_map.mp hkeyed
  obtain ⟨hkey, hentity⟩ := Prod.mk.inj heq
  exact ⟨y.1, by rw [← hentity]; exact hy, hkey⟩

/-- When the inputs have distinct keys as well, an entity has the key of no other input. -/
theorem Answers.eq_of_key (h : crud.Answers inputs created)
    (hinputs : (inputs.map crud.keyOf).Nodup) {x y : α × α} (hx : x ∈ inputs.zip created)
    (hy : y ∈ inputs.zip created) (hkey : crud.keyOf x.2 = crud.keyOf y.1) : x = y := by
  have hnodup : ((inputs.zip created).map fun x => crud.keyOf x.1).Nodup := by
    rw [← List.map_fst_zip (Nat.le_of_eq h.length_eq.symm), List.map_map] at hinputs
    exact hinputs
  rcases h.own_or_new x hx with hown | hnew
  · exact List.inj_on_of_nodup_map hnodup hx hy (hown.symm.trans hkey)
  · exact absurd (hkey ▸ List.mem_map_of_mem (List.of_mem_zip hy).1) hnew

/-- So only an entity and its own input may have a key in common. -/
theorem Answers.disjoint (h : crud.Answers inputs created)
    (hinputs : (inputs.map crud.keyOf).Nodup) (c : Cache α) :
    ((crud.reserveAll inputs c).1.zip created).Pairwise fun x y =>
      (crud.keysOf x).Disjoint (crud.keysOf y) := by
  have hentities := pairwise_entities h.length_eq h.distinct c
  have hreserved := pairwise_inputs h.length_eq hinputs c
  have hother : ∀ x ∈ (crud.reserveAll inputs c).1.zip created,
      ∀ y ∈ (crud.reserveAll inputs c).1.zip created, x.1.key ≠ y.1.key →
        crud.keyOf x.2 ≠ y.1.key := by
    intro x hx y hy hne hsame
    obtain ⟨input, hmem, hkey⟩ := exists_input c hx
    obtain ⟨input', hmem', hkey'⟩ := exists_input c hy
    have heq := h.eq_of_key hinputs hmem hmem' (hsame.trans hkey'.symm)
    exact hne (hkey.symm.trans ((congrArg (fun x => crud.keyOf x.1) heq).trans hkey'))
  exact (hentities.and hreserved).imp_of_mem fun {x y} hx hy hne => disjoint_keysOf_iff.mpr
    ⟨⟨hne.1, hother x hx y hy hne.2⟩, (hother y hy x hx hne.2.symm).symm, hne.2⟩

/-! ### The creation -/

section Create

variable {types : Set EntityType} {events : List (Event α)}

/-- The backend of a creation is asked in a cache in which things may be looked up, provided that no
record was in two slots. -/
theorem looking_reserveAll (hc : Housed [] c)
    (htypes : ∀ s h, c.recordAt? s = some h → h.type ∈ types) (hcrud : crud.type ∈ types)
    (inputs : List α) : (Traffic.mk (crud.reserveAll inputs c).2 []).Looking types := by
  refine Traffic.looking_idle (housed_reserveAll inputs hc) fun hs => ?_
  rcases (keeps_reserveAll inputs hc.sound).entered hs with hs | ⟨htype, -⟩
  · exact htypes _ _ hs
  · exact htype ▸ hcrud

/-- What was in a slot of the type before a creation is found there after its backend has looked
things up. -/
theorem find?_of_before (hkinds : types.InjOn EntityType.kind) (hcrud : crud.type ∈ types)
    (hc : c.Sound) (htypes : ∀ s h, c.recordAt? s = some h → h.type ∈ types)
    (hlooking : (Traffic.mk (crud.reserveAll inputs c).2 []).Looking types)
    (hlookups : ∀ event ∈ events, event.IsLookup types) {key : String} {h : Handle}
    (hs : c.recordAt? (Memo.slot crud.side crud.type key) = some h) :
    ((Traffic.mk (crud.reserveAll inputs c).2 []).run events).cache.memo.find?
      crud.side crud.type key = some h := by
  have hfound := (owns_of_injOn hkinds hc htypes hcrud hs).find? hs
  exact (hlooking.undisturbed hkinds crud hlookups).found
    (crud.find?_reserveAll_of_some inputs hfound)

/-- A record that was reserved is found under the key of its input after the backend has looked
things up. -/
theorem find?_of_reserved (hkinds : types.InjOn EntityType.kind)
    (hlooking : (Traffic.mk (crud.reserveAll inputs c).2 []).Looking types)
    (hlookups : ∀ event ∈ events, event.IsLookup types) {r : Reserved}
    (hr : r ∈ (crud.reserveAll inputs c).1) :
    ((Traffic.mk (crud.reserveAll inputs c).2 []).run events).cache.memo.find?
      crud.side crud.type r.key = some r.record :=
  (hlooking.undisturbed hkinds crud hlookups).seated r hr

/-- The reservation for an input. -/
theorem exists_reserved {i : Nat} {input : α} (hinput : inputs[i]? = some input) (c : Cache α) :
    ∃ r, (crud.reserveAll inputs c).1[i]? = some r ∧ r.key = crud.keyOf input := by
  have hkeys := congrArg (·[i]?) (crud.map_key_reserveAll inputs c)
  simp only [List.getElem?_map, hinput] at hkeys
  exact Option.map_eq_some_iff.mp hkeys

/-- A creation whose backend answers with one entity for each input settles them all. -/
theorem run_create_of_length (crud : Crud α) (backend : Backend (Work σ α) α) {c₂ : Cache α}
    {st st' : σ} (hlength : created.length = inputs.length)
    (hrun : ((backend.create inputs).run (crud.reserveAll inputs c).2).run st =
      ((.ok created, c₂), st')) :
    ((crud.create backend inputs).run c).run st =
      ((.ok (crud.settleAll (crud.reserveAll inputs c).1 created c₂).1,
        (crud.settleAll (crud.reserveAll inputs c).1 created c₂).2), st') := by
  rw [crud.run_create_ok backend hrun,
    crud.finishCreate_of_length (hlength.trans (crud.length_reserveAll inputs c).symm)]

/-- **Created entities are merged into what is there.** On a cache in which no record is in two
slots, entities with distinct keys are created, and before the backend answers it may look things
up. Then each created entity is in every record that was in the slot of its input's key or of its
own key before, in the record that a read of the input's key was answered with at any moment of the
call, and in the record that is returned for it, which is in the slot of its key. The slot of an
input's key that was replaced is vacant. -/
theorem create_merges (hkinds : types.InjOn EntityType.kind) (hcrud : crud.type ∈ types)
    (backend : Backend (Work σ α) α) (hc : c.Sound)
    (htypes : ∀ s h, c.recordAt? s = some h → h.type ∈ types)
    (hsingle : ∀ s s' h h', c.recordAt? s = some h → c.recordAt? s' = some h' →
      h.place = h'.place → s = s')
    (hinputs : (inputs.map crud.keyOf).Nodup) (hanswers : crud.Answers inputs created)
    (hlookups : ∀ event ∈ events, event.IsLookup types) {st st' : σ}
    (hrun : ((backend.create inputs).run (crud.reserveAll inputs c).2).run st =
      ((.ok created, ((Traffic.mk (crud.reserveAll inputs c).2 []).run events).cache), st')) :
    let slot := Memo.slot crud.side crud.type
    let meanwhile := fun n =>
      ((Traffic.mk (crud.reserveAll inputs c).2 []).run (events.take n)).cache
    ∃ records c', ((crud.create backend inputs).run c).run st = ((.ok records, c'), st') ∧
      records.length = created.length ∧
      ∀ (i : Nat) (input e : α) (r : Handle),
        inputs[i]? = some input → created[i]? = some e → records[i]? = some r →
        (∀ h, c.recordAt? (slot (crud.keyOf input)) = some h ∨
          c.recordAt? (slot (crud.keyOf e)) = some h → c'.entity? h = some e) ∧
        (∃ h, (∀ n, crud.beginRead (crud.keyOf input) (meanwhile n) = (.known h, meanwhile n)) ∧
          c'.entity? h = some e) ∧
        c'.recordAt? (slot (crud.keyOf e)) = some r ∧ c'.entity? r = some e ∧
        (crud.keyOf e ≠ crud.keyOf input → c'.recordAt? (slot (crud.keyOf input)) = none) := by
  intro slot meanwhile
  have hlooking := looking_reserveAll (Housed.of_single hc (hsingle _ _ _ _)) htypes hcrud inputs
  have hhoused := (hlooking.run hlookups).housed.sublist (List.nil_sublist _)
  have hseated : crud.Seated ((Traffic.mk (crud.reserveAll inputs c).2 []).run events).cache
      ((crud.reserveAll inputs c).1.zip created) :=
    ⟨fun x hx => find?_of_reserved hkinds hlooking hlookups (List.of_mem_zip hx).1,
      hanswers.disjoint hinputs c⟩
  refine ⟨_, _, run_create_of_length crud backend hanswers.length_eq hrun, ?_,
    fun i input e r hinput hcreated hrecord => ?_⟩
  · rw [fst_settleAll hhoused.sound (hseated.unmixed hhoused.sound), List.length_map,
      List.length_zip, crud.length_reserveAll, hanswers.length_eq, Nat.min_self]
  · obtain ⟨res, hres, hkey⟩ := exists_reserved hinput c
    have hmem := List.mem_of_getElem? hres
    obtain ⟨hown, hreserved, hheld, hslot, hreplaced⟩ :=
      hseated.getElem?_settleAll hhoused hres hcreated hrecord
    have hfound := find?_of_reserved hkinds hlooking hlookups hmem
    have hseen : ∀ n, (meanwhile n).memo.find? crud.side crud.type res.key = some res.record :=
      fun n => find?_of_reserved hkinds hlooking
        (fun event hevent => hlookups event (List.mem_of_mem_take hevent)) hmem
    rw [hkey] at hreplaced hfound hseen
    refine ⟨?_, ⟨res.record, fun n => crud.beginRead_of_some (hseen n), hreserved⟩, hslot, hheld,
      hreplaced⟩
    rintro h (hs | hs)
    · rw [find?_of_before hkinds hcrud hc htypes hlooking hlookups hs] at hfound
      exact Option.some.inj hfound ▸ hreserved
    · exact hown h (find?_of_before hkinds hcrud hc htypes hlooking hlookups hs) ▸ hheld

/-- A backend that answers every call with the same entities. -/
def finding (found : List α) : Backend (Work σ α) α where
  create _ := pure (.ok found)
  read _ := pure (.ok found)
  update _ := pure (.ok found)
  delete _ := pure (.ok ())

/-- A backend that reads a key and lists everything before it answers to a creation. -/
def consulting : Backend (Work Unit (String × Nat)) (String × Nat) where
  create _ := do
    let _ ← shelfCrud.read (finding [("z", 7)]) "z"
    let _ ← shelfCrud.readAll (finding [("c", 8), ("y", 9)])
    return .ok [("a", 5), ("c", 4)]
  read _ := pure (.ok [])
  update es := pure (.ok es)
  delete _ := pure (.ok ())

theorem housed_halfRead : Housed [] halfRead := by
  have hmerged : Housed [] (Cache.empty.merge .cloud shelfCrud.type "a" ("a", 1)).2 :=
    (Housed.of_single sound_empty nofun).merge
  exact (hmerged.reserve .cloud shelfCrud.type "b" rfl).sublist (List.sublist_cons_self _ _)

/-- The key of the first input is being read, and its entity gets a key that is taken: the record
under the new key and the placeholder both hold it. The second input keeps its key, under which a
listing inside the call has found something else. -/
theorem create_merges_taken :
    let slot := Memo.slot shelfCrud.side shelfCrud.type
    let h := fun place => (⟨shelfCrud.type, place⟩ : Handle)
    halfRead.recordAt? (slot "a") = some (h 0) ∧ halfRead.recordAt? (slot "b") = some (h 1) ∧
      ∃ c', ((shelfCrud.create consulting [("b", 2), ("c", 3)]).run halfRead).run () =
          ((.ok [h 0, h 2], c'), ()) ∧
        c'.entity? (h 0) = some ("a", 5) ∧ c'.entity? (h 1) = some ("a", 5) ∧
        c'.recordAt? (slot "b") = none ∧ c'.entity? (h 2) = some ("c", 4) := by
  intro slot h
  let lookups : List (Event (String × Nat)) :=
    [.begin shelfCrud (.read "z"), .finish 0 (.ok [("z", 7)]),
      .begin shelfCrud .readAll, .finish 0 (.ok [("c", 8), ("y", 9)])]
  have hlookups : ∀ event ∈ lookups, event.IsLookup {shelfCrud.type} := by
    have htype := Set.mem_singleton shelfCrud.type
    simp only [lookups, List.forall_mem_cons]
    exact ⟨.read htype _, .finish _ _, .readAll htype, .finish _ _, nofun⟩
  have hanswers : shelfCrud.Answers [("b", 2), ("c", 3)] [("a", 5), ("c", 4)] :=
    ⟨rfl, by decide, by decide⟩
  obtain ⟨records, c', hcreate, -, hmerged⟩ := create_merges (Set.injOn_singleton _ _)
    (Set.mem_singleton shelfCrud.type) consulting sound_halfRead
    (fun _ _ hs => type_of_halfRead hs) (fun _ _ _ _ => housed_halfRead.single) (by decide) hanswers
    hlookups (rfl : ((consulting.create _).run _).run () = _)
  obtain rfl : records = [h 0, h 2] := by
    have hanswer : ((shelfCrud.create consulting [("b", 2), ("c", 3)]).run halfRead).run () =
        ((.ok [h 0, h 2], _), _) := rfl
    exact Except.ok.inj (congrArg (·.1.1) (hcreate.symm.trans hanswer))
  obtain ⟨hknown, -, -, -, hreplaced⟩ := hmerged 0 ("b", 2) ("a", 5) (h 0) rfl rfl rfl
  obtain ⟨-, -, -, hkept, -⟩ := hmerged 1 ("c", 3) ("c", 4) (h 2) rfl rfl rfl
  exact ⟨by decide, by decide, c', hcreate, hknown _ (.inr (by decide)),
    hknown _ (.inl (by decide)), hreplaced (by decide), hkept⟩

end Create

end Crud

end Reconcile
