import Reconcile.Proofs.Cache.Kept
import Reconcile.Proofs.Traffic.Calls

/-!
# Failed calls leave no trace

A call that fails leaves a cache **intact**: every slot holds the record that it held before, and
every record that there was holds the entity that it held before (`Cache.Intact`). What a call does
before its backend is asked may change the cache; what is to be shown is that the end of the failed
call undoes exactly that, in every state of the memo.

* **Creating** fills the slots of its inputs that are vacant. A fresh reservation is made once for
  every key, in a slot that was vacant (`Crud.find?_of_fresh`), and rolling back vacates exactly the
  slots of the fresh reservations: `Crud.intact_rollBack`.
* **Reading** puts a placeholder into a vacant slot and takes it out again:
  `Crud.intact_abandonRead`.
* **The other calls** do not touch the cache before they end.

All this needs that the slots of a type hold records of this type only, as they do when types are
told apart by their kinds (`Crud.Owns`). A slot that is taken by a record of another type would be
taken over by a reservation, and the record in it would be lost.
-/

namespace Reconcile

open Cache

variable {σ α : Type}

/-- A cache that looks as it did before: the same records are in the same slots, and the records
that there were hold the same entities. -/
structure Cache.Intact (c c' : Cache α) : Prop where
  slots : ∀ s, c'.recordAt? s = c.recordAt? s
  entities : ∀ h, c.Has h → c'.entity? h = c.entity? h

theorem Cache.Intact.refl (c : Cache α) : Intact c c := ⟨fun _ => rfl, fun _ _ => rfl⟩

namespace Crud

variable {crud : Crud α} {c : Cache α}

/-! ### Rolling back -/

/-- Reserving slots for inputs changes the slots of the fresh reservations only. -/
theorem recordAt?_reserveAll (es : List α) (c : Cache α) {s : Slot}
    (hs : ∀ r ∈ (crud.reserveAll es c).1, r.fresh → s ≠ Memo.slot crud.side crud.type r.key) :
    (crud.reserveAll es c).2.recordAt? s = c.recordAt? s := by
  induction es generalizing c with
  | nil => rfl
  | cons e es ih =>
    cases hfirst : c.memo.find? crud.side crud.type (crud.keyOf e) with
    | some h =>
      rw [reserveAll_cons_of_some crud hfirst] at hs ⊢
      exact ih c (List.forall_mem_cons.mp hs).2
    | none =>
      rw [reserveAll_cons_of_none crud hfirst] at hs ⊢
      obtain ⟨hne, hs⟩ := List.forall_mem_cons.mp hs
      exact (ih _ hs).trans ((recordAt?_mergeInto _ _ _ e (admits_none _) s).trans
        (if_neg (hne rfl)))

/-- Reserving slots for inputs fills new records only. -/
theorem entity?_reserveAll (hc : c.Sound) (es : List α) {h : Handle} (hh : c.Has h) :
    (crud.reserveAll es c).2.entity? h = c.entity? h := by
  induction es generalizing c with
  | nil => rfl
  | cons e es ih =>
    cases hfirst : c.memo.find? crud.side crud.type (crud.keyOf e) with
    | some k =>
      rw [reserveAll_cons_of_some crud hfirst]
      exact ih hc hh
    | none =>
      have hnone := admits_none (c := c) crud.type
      rw [reserveAll_cons_of_none crud hfirst]
      refine (ih (hc.mergeInto _ _ _ e hnone) (Has.mergeInto _ _ _ e hh)).trans ?_
      rw [entity?_mergeInto _ _ _ e hc hnone, fst_mergeInto, hfirst]
      exact if_neg (Nat.ne_of_lt hh)

/-- Rolling back takes the records of the fresh reservations out of their slots. -/
theorem recordAt?_rollBack {rs : List Reserved} (htypes : ∀ r ∈ rs, r.record.type = crud.type)
    {c : Cache α} {s : Slot} {h : Handle} :
    (crud.rollBack rs c).recordAt? s = some h ↔ c.recordAt? s = some h ∧
      ∀ r ∈ rs, r.fresh → s = Memo.slot crud.side crud.type r.key → h ≠ r.record := by
  induction rs generalizing c with
  | nil => simp [rollBack]
  | cons r rs ih =>
    obtain ⟨htype, htypes⟩ := List.forall_mem_cons.mp htypes
    unfold rollBack
    rw [List.foldl_cons, List.forall_mem_cons]
    refine (ih htypes).trans ?_
    by_cases hfresh : r.fresh
    · have hevict : (c.evictRecord crud.side r.key r.record).recordAt? s = some h ↔
          c.recordAt? s = some h ∧ (s = Memo.slot crud.side crud.type r.key → h ≠ r.record) := by
        rw [recordAt?_evictRecord, htype]
        split_ifs with hheld
        · simp [hheld.1, hheld.1 ▸ hheld.2, eq_comm]
        · exact ⟨fun hs => ⟨hs, fun heq hh => hheld ⟨heq, hh ▸ hs⟩⟩, And.left⟩
      rw [if_pos hfresh, hevict, and_assoc]
      simp [hfresh]
    · rw [if_neg hfresh]
      simp [hfresh]

/-- **Rolling back** a creation undoes its reservations and nothing else, whatever keys its inputs
have. -/
theorem intact_rollBack (hc : c.Sound) (howns : crud.Owns c) (es : List α) :
    Intact c (crud.rollBack (crud.reserveAll es c).1 (crud.reserveAll es c).2) := by
  have hholds := crud.holds_reserveAll es hc
  refine ⟨fun s => ?_, fun h hh => ?_⟩
  · have hseated : ∀ r ∈ (crud.reserveAll es c).1, (crud.reserveAll es c).2.recordAt?
        (Memo.slot crud.side crud.type r.key) = some r.record := fun r hr =>
      (find?_eq_some.mp (crud.find?_reserveAll_of_mem es c r hr)).1
    refine Option.ext fun h => (recordAt?_rollBack fun r hr => (hholds r hr).1).trans ?_
    constructor
    · rintro ⟨hs, hleft⟩
      rwa [recordAt?_reserveAll es c] at hs
      -- the record of a fresh reservation is in its slot, but was taken out
      rintro r hr hfresh rfl
      exact hleft r hr hfresh rfl (Option.some.inj (hs.symm.trans (hseated r hr)))
    · intro hs
      have hnot : ∀ r ∈ (crud.reserveAll es c).1, r.fresh →
          s ≠ Memo.slot crud.side crud.type r.key := by
        rintro r hr hfresh rfl
        rw [howns.vacant (crud.find?_of_fresh es c r hr hfresh)] at hs
        cases hs
      exact ⟨(recordAt?_reserveAll es c hnot).trans hs, fun r hr hfresh heq =>
        absurd heq (hnot r hr hfresh)⟩
  · exact (crud.entity?_rollBack _ _ h).trans (entity?_reserveAll hc es hh)

/-! ### Abandoning a read -/

/-- **Abandoning** a read takes its placeholder out of the slot, which was vacant before. -/
theorem intact_abandonRead (howns : crud.Owns c) {key : String}
    (hvacant : c.memo.find? crud.side crud.type key = none) :
    Intact c (crud.abandonRead key (c.nextRecord crud.type)
      (c.reserve crud.side crud.type key).2) := by
  have hrecord := c.record_reserve crud.side crud.type key
  rw [hvacant, Option.getD_none] at hrecord
  refine ⟨fun s => ?_, fun h _ => c.entity?_reserve crud.side crud.type key h⟩
  have hevict : (crud.abandonRead key (c.nextRecord crud.type)
      (c.reserve crud.side crud.type key).2).recordAt? s =
      if s = Memo.slot crud.side crud.type key ∧
        (c.reserve crud.side crud.type key).2.recordAt? s = some (c.nextRecord crud.type) then none
      else (c.reserve crud.side crud.type key).2.recordAt? s :=
    recordAt?_evictRecord _ crud.side key (c.nextRecord crud.type) s
  rw [hevict, recordAt?_reserve, hrecord]
  by_cases hs : s = Memo.slot crud.side crud.type key
  · rw [if_pos hs, if_pos ⟨hs, rfl⟩, hs, howns.vacant hvacant]
  · rw [if_neg hs, if_neg fun h => hs h.1]

end Crud

/-! ### Calls that fail -/

namespace Call

variable {crud : Crud α} {c c₁ : Cache α} {call : Call α}

/-- A read that fails or finds nothing undoes what it did when it began. -/
theorem intact_finish_read (howns : crud.Owns c) {key : String}
    (hbegin : (Request.read key).begin crud c = (some call, c₁)) {answer : Answer α}
    (hnothing : (∃ cause, answer = .error cause) ∨ answer = .ok []) :
    Intact c (call.finish answer c₁) := by
  cases hfound : c.memo.find? crud.side crud.type key with
  | some h =>
    rw [Request.begin_read_of_some hfound] at hbegin
    cases hbegin
  | none =>
    rw [Request.begin_read_of_none hfound] at hbegin
    cases hbegin
    have habandoned := Crud.intact_abandonRead howns hfound
    rcases hnothing with ⟨cause, rfl⟩ | rfl
    · exact habandoned
    · exact habandoned

/-- A call that fails undoes what it did when it began. -/
theorem intact_finish_error (hc : c.Sound) (howns : crud.Owns c) {request : Request α}
    (hbegin : request.begin crud c = (some call, c₁)) (cause : String) :
    Intact c (call.finish (.error cause) c₁) := by
  cases request with
  | create es =>
    cases hbegin
    exact Crud.intact_rollBack hc howns es
  | read key => exact intact_finish_read howns hbegin (Or.inl ⟨cause, rfl⟩)
  | readAll =>
    cases hbegin
    exact Intact.refl c
  | update es =>
    cases hbegin
    exact Intact.refl c
  | delete es =>
    cases hbegin
    exact Intact.refl c

end Call

namespace Crud

/-- **Failed calls leave no trace.** When types are told apart by their kinds, a call whose backend
fails without having used the cache leaves every slot with the record that it held, on both sides,
and every record with the entity that it held. So does a read whose backend finds nothing. Nothing
is asked of what the slots hold, placeholders of other reads included, or of the keys of the
inputs. -/
theorem failure_invisible {types : Set EntityType} (hkinds : types.InjOn EntityType.kind)
    {crud : Crud α} (hcrud : crud.type ∈ types) (backend : Backend (Work σ α) α)
    (request : Request α) {c : Cache α} (hc : c.Sound)
    (htypes : ∀ slot h, c.recordAt? slot = some h → h.type ∈ types) {s s' : σ} {answer : Answer α}
    (hasked : ((backend.answer request).run (request.begin crud c).2).run s =
      ((answer, (request.begin crud c).2), s'))
    (hfailed : (∃ cause, answer = .error cause) ∨ answer = .ok [] ∧ ∃ key, request = .read key) :
    let c' := (((crud.perform backend request).run c).run s).1.2
    (∀ slot, c'.recordAt? slot = c.recordAt? slot) ∧
      ∀ slot h, c.recordAt? slot = some h → c'.entity? h = c.entity? h := by
  intro c'
  have howns : crud.Owns c := owns_of_injOn hkinds hc htypes hcrud
  have hintact : Intact c c' := by
    have hrun := crud.run_perform backend request c s
    cases hbegin : request.begin crud c with
    | mk call? c₁ =>
      rw [hbegin] at hrun hasked
      cases call? with
      | none =>
        have hend : c' = c := by simp only [c', hrun, Request.begin_eq_none hbegin]
        rw [hend]
        exact Intact.refl c
      | some call =>
        have hend : c' = call.finish answer c₁ := by simp only [c', hrun, hasked]
        rw [hend]
        rcases hfailed with ⟨cause, rfl⟩ | ⟨rfl, key, rfl⟩
        · exact Call.intact_finish_error hc howns hbegin cause
        · exact Call.intact_finish_read howns hbegin (Or.inr rfl)
  exact ⟨hintact.slots, fun slot h hs => hintact.entities h (hc.has hs)⟩

/-- A backend that refuses every call. -/
def refusing (cause : String) : Backend (Work σ α) α where
  create _ := pure (.error cause)
  read _ := pure (.error cause)
  update _ := pure (.error cause)
  delete _ := pure (.error cause)

/-- A memo with a filled record under one key, and under another the placeholder of a read that is
under way. -/
def halfRead : Cache (String × Nat) :=
  ((Cache.empty.merge .cloud shelfCrud.type "a" ("a", 1)).2.reserve .cloud shelfCrud.type "b").2

theorem sound_halfRead : halfRead.Sound :=
  (sound_empty.mergeInto _ _ _ ("a", 1) (admits_none _)).reserve _ _ _

theorem type_of_halfRead {s : Slot} {h : Handle} (hs : halfRead.recordAt? s = some h) :
    h.type = shelfCrud.type := by
  rw [halfRead, recordAt?_reserve] at hs
  split_ifs at hs
  · cases hs
    exact type_reserve _ _ _ _
  · rw [merge, recordAt?_mergeInto _ _ _ _ (admits_none _)] at hs
    split_ifs at hs
    · cases hs
      exact type_mergeInto _ _ _ _ (admits_none _)
    · cases hs

/-- Four entities are refused: two of a key that was vacant, one whose key was taken, and one whose
key is being read. The slot that was reserved for the first two is vacant again, and the two others
are as they were. -/
theorem failure_invisible_create :
    let request : Request (String × Nat) := .create [("c", 2), ("a", 3), ("c", 4), ("b", 5)]
    let c' := (((shelfCrud.perform (refusing "out of stock") request).run halfRead).run ()).1.2
    let slot := Memo.slot .cloud shelfCrud.type
    ((request.begin shelfCrud halfRead).2.recordAt? (slot "c")).isSome ∧
      ["a", "b", "c"].map (fun key => c'.recordAt? (slot key)) =
        [some ⟨shelfCrud.type, 0⟩, some ⟨shelfCrud.type, 1⟩, none] ∧
      c'.entity? ⟨shelfCrud.type, 0⟩ = some ("a", 1) ∧ c'.entity? ⟨shelfCrud.type, 1⟩ = none := by
  intro request c' slot
  -- the backend is asked, refuses and leaves the cache alone
  have hasked : (((refusing "out of stock").answer request).run
      (request.begin shelfCrud halfRead).2).run () =
      ((.error "out of stock", (request.begin shelfCrud halfRead).2), ()) := rfl
  obtain ⟨hslots, hentities⟩ := failure_invisible (Set.injOn_singleton _ _)
    (Set.mem_singleton shelfCrud.type) (refusing "out of stock") request sound_halfRead
    (fun _ _ hs => type_of_halfRead hs) hasked (Or.inl ⟨_, rfl⟩)
  refine ⟨by decide, ?_, (hentities (slot "a") _ (by decide)).trans (by decide),
    (hentities (slot "b") _ (by decide)).trans (by decide)⟩
  rw [List.map_congr_left fun key _ => hslots (slot key)]
  decide

end Crud

end Reconcile
