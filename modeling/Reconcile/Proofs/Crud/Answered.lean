import Reconcile.Proofs.Cache.Found
import Reconcile.Proofs.Crud.Updated

/-!
# What a read answers and what it leaves

A read that asks its backend may be told of any entities: several of one key, none of the key that
was asked for, or none at all. It answers with the record of its key if an entity of the key was
among them, and otherwise with the record of the first one. Whatever it answers, every entity that
was found is stored under its own key, and the last one of each key stays
(`Crud.read_last_of_each_key`).

Taking in what was found is merging it (`Crud.snd_finishRead`). So this is first said of merged
lists, where no record may be in two slots: an entity of one key would otherwise be written over
that of another (`Crud.exists_find?_mergeAll`).
-/

namespace Reconcile

namespace Crud

open Cache

variable {σ α : Type} {crud : Crud α} {c : Cache α} {key : String} {p : Handle}

/-- When entities have been merged, the last one of a key is found there, in the record that was
found there before if there was one. -/
theorem exists_find?_mergeAll (hc : Housed [] c) {es : List α} {e : α}
    (hlast : crud.lastOf es key = some e) :
    ∃ h, (crud.mergeAll es c).2.memo.find? crud.side crud.type key = some h ∧
      (crud.mergeAll es c).2.entity? h = some e ∧
      ∀ h₀, c.memo.find? crud.side crud.type key = some h₀ → h₀ = h := by
  induction es generalizing c with
  | nil => cases hlast
  | cons e' es ih =>
    have hnone := admits_none (c := c) crud.type
    have hmerge : Housed [] (c.merge crud.side crud.type (crud.keyOf e') e').2 := hc.merge
    rw [lastOf_cons] at hlast
    cases hlater : crud.lastOf es key with
    | some e'' =>
      -- a later entity of the key is the last one
      rw [hlater, Option.some_or] at hlast
      obtain ⟨h, hfound, hheld, hbefore⟩ := ih hmerge (hlater.trans hlast)
      exact ⟨h, hfound, hheld, fun h₀ hh₀ =>
        hbefore h₀ (find?_mergeInto_of_some _ _ _ e' hnone hh₀)⟩
    | none =>
      rw [hlater, Option.none_or, Option.ite_none_right_eq_some] at hlast
      obtain ⟨rfl, rfl⟩ : crud.keyOf e' = key ∧ e' = e := ⟨hlast.1, Option.some.inj hlast.2⟩
      have hnew := lastOf_eq_none_iff.mp hlater
      have hfound := (find?_mergeInto crud.side crud.type (crud.keyOf e') e' hnone
        (crud.keyOf e')).trans (if_pos rfl)
      refine ⟨_, (crud.find?_mergeAll_of_new es _ hnew).trans hfound, ?_, fun h₀ hh₀ => ?_⟩
      · exact (entity?_mergeAll_of_new hmerge hnew hfound).trans
          (entity?_merged hc.sound _ _ hnone e')
      · rw [fst_mergeInto, hh₀, Option.getD_some]

/-- The same when a read has ended, of all that it found. -/
theorem exists_find?_finishRead (hc : Housed [] c)
    (hp : c.memo.find? crud.side crud.type key = some p) {found : List α} {key' : String} {e : α}
    (hlast : crud.lastOf found key' = some e) :
    ∃ h, (crud.finishRead key p found c).2.memo.find? crud.side crud.type key' = some h ∧
      (crud.finishRead key p found c).2.entity? h = some e ∧
      ∀ h₀, c.memo.find? crud.side crud.type key' = some h₀ → h₀ = h := by
  obtain ⟨h, hfound, hheld, hbefore⟩ := exists_find?_mergeAll hc hlast
  refine ⟨h, ?_, ?_, hbefore⟩
  · rw [snd_finishRead found hp]
    split_ifs with hin
    · exact hfound
    · have hne : key' ≠ key := fun heq => hin (heq ▸ mem_of_lastOf hlast)
      rwa [crud.find?_abandonRead (crud.find?_mergeAll_of_some found hp), if_neg hne]
  · rw [snd_finishRead found hp]
    split_ifs
    · exact hheld
    · exact hheld

/-- A read leaves the slots of the keys of which it found nothing. Its own slot becomes vacant. -/
theorem recordAt?_finishRead (hp : c.memo.find? crud.side crud.type key = some p) {found : List α}
    {s : Slot} (hs : ∀ e ∈ found, s ≠ Memo.slot crud.side crud.type (crud.keyOf e)) :
    (crud.finishRead key p found c).2.recordAt? s =
      if s = Memo.slot crud.side crud.type key then none else c.recordAt? s := by
  have hmerged := crud.recordAt?_mergeAll_of_ne found c hs
  have hleft := crud.recordAt?_abandonRead (crud.find?_mergeAll_of_some found hp) s
  rw [hmerged] at hleft
  rw [snd_finishRead found hp]
  split_ifs with hin hslot hslot
  · obtain ⟨e, he, rfl⟩ := List.mem_map.mp hin
    exact absurd hslot (hs e he)
  · exact hmerged
  · exact hleft.trans (if_pos hslot)
  · exact hleft.trans (if_neg hslot)

/-- A read leaves the records that are not found under the keys of which it found something. -/
theorem entity?_finishRead_of_ne (hc : c.Sound)
    (hp : c.memo.find? crud.side crud.type key = some p) {found : List α} {k : Handle}
    (hk : c.Has k) (hne : ∀ e ∈ found, ∀ h,
      c.memo.find? crud.side crud.type (crud.keyOf e) = some h → k.place ≠ h.place) :
    (crud.finishRead key p found c).2.entity? k = c.entity? k := by
  have hmerged := crud.entity?_mergeAll_of_ne found hc hk hne
  rw [snd_finishRead found hp]
  split_ifs
  · exact hmerged
  · exact hmerged

/-- **The answer of a read**, on a cache in which no record is in two slots and types are told apart
by their kinds, and with a backend that does nothing to the cache. The answer is nothing only if
nothing was found. If an entity of the key was found, the answer is the record under the key, which
holds the last such entity; otherwise it is the record under the key of the first entity, and the
key is not found afterwards. Every key of which something was found has the last entity of it, in
the record that was found there before if there was one. Nothing else changes. -/
theorem read_last_of_each_key {types : Set EntityType} (hkinds : types.InjOn EntityType.kind)
    (hcrud : crud.type ∈ types) (backend : Backend (Work σ α) α) (hc : Housed [] c)
    (htypes : ∀ s h, c.recordAt? s = some h → h.type ∈ types)
    (hvacant : c.memo.find? crud.side crud.type key = none) {found : List α} {st st' : σ}
    (hrun : ((backend.read (some key)).run (crud.beginRead key c).2).run st =
      ((.ok found, (crud.beginRead key c).2), st')) :
    let find? := fun (c : Cache α) key => c.memo.find? crud.side crud.type key
    ∃ answer c', ((crud.read backend key).run c).run st = ((.ok answer, c'), st') ∧
      (answer = none ↔ found = []) ∧
      (∀ e, crud.lastOf found key = some e →
        ∃ h, answer = some h ∧ find? c' key = some h ∧ c'.entity? h = some e) ∧
      (key ∉ found.map crud.keyOf →
        answer = (found.head?.map crud.keyOf).bind (find? c') ∧ find? c' key = none) ∧
      (∀ key' e, crud.lastOf found key' = some e →
        ∃ h, find? c' key' = some h ∧ c'.entity? h = some e ∧
          ∀ h₀, find? c key' = some h₀ → h₀ = h) ∧
      (∀ s, (∀ e ∈ found, s ≠ Memo.slot crud.side crud.type (crud.keyOf e)) →
        c'.recordAt? s = c.recordAt? s) ∧
      ∀ k, c.Has k → (∀ e ∈ found, ∀ h, find? c (crud.keyOf e) = some h → k.place ≠ h.place) →
        c'.entity? k = c.entity? k := by
  intro find?
  have howns : crud.Owns c := owns_of_injOn hkinds hc.sound htypes hcrud
  have hbegin := crud.beginRead_of_none hvacant
  rw [hbegin] at hrun
  -- what is known of the cache in which the backend is asked
  have hrecord : (c.reserve crud.side crud.type key).1.record = c.nextRecord crud.type := by
    rw [record_reserve, hvacant, Option.getD_none]
  have hfind := c.find?_reserve crud.side crud.type key
  have hslots := c.recordAt?_reserve crud.side crud.type key
  rw [hrecord] at hfind hslots
  have hp := (hfind key).trans (if_pos rfl)
  have hhoused : Housed [] (c.reserve crud.side crud.type key).2 :=
    (hc.reserve crud.side crud.type key hvacant).sublist (List.nil_sublist _)
  have hanswer := fst_finishRead hhoused.sound hp found
  refine ⟨_, _, crud.run_read_ok backend hbegin hrun, ?_, fun e hlast => ?_, fun hnew => ?_,
    fun key' e hlast => ?_, fun s hs => ?_, fun k hk hne => ?_⟩
  · exact fst_finishRead_eq_none_iff hhoused.sound hp
  · obtain ⟨h, hfound, hheld, -⟩ := exists_find?_finishRead hhoused hp hlast
    rw [answerKey?_of_mem (mem_of_lastOf hlast), Option.bind_some, hfound] at hanswer
    exact ⟨h, hanswer, hfound, hheld⟩
  · rw [answerKey?_of_not_mem hnew] at hanswer
    refine ⟨hanswer, ?_⟩
    have hleft := crud.find?_abandonRead (crud.find?_mergeAll_of_some found hp) key
    change (crud.finishRead key _ found _).2.memo.find? crud.side crud.type key = none
    rw [snd_finishRead found hp, if_neg hnew]
    exact hleft.trans (if_pos rfl)
  · obtain ⟨h, hfound, hheld, hbefore⟩ := exists_find?_finishRead hhoused hp hlast
    refine ⟨h, hfound, hheld, fun h₀ hh₀ => hbefore h₀ ?_⟩
    have hne : key' ≠ key := fun heq => by
      rw [heq, show find? c key = none from hvacant] at hh₀
      cases hh₀
    exact ((hfind key').trans (if_neg hne)).trans hh₀
  · rw [recordAt?_finishRead hp hs]
    split_ifs with hslot
    · rw [hslot, howns.vacant hvacant]
    · exact (hslots s).trans (if_neg hslot)
  · refine (entity?_finishRead_of_ne hhoused.sound hp (hk.reserve crud.side crud.type key)
      fun e he h hh => ?_).trans (c.entity?_reserve crud.side crud.type key k)
    rw [hfind] at hh
    split_ifs at hh
    · cases hh
      exact Nat.ne_of_lt hk
    · exact hne e he h hh

/-- A read is told of two entities of its key among others, one key of which was found before. The
placeholder of another read stays as it is. -/
theorem read_last_of_each_key_mixed :
    let found := [("a", 5), ("c", 6), ("d", 7), ("c", 8), ("a", 9)]
    let h := fun place => (⟨shelfCrud.type, place⟩ : Handle)
    halfRead.memo.find? shelfCrud.side shelfCrud.type "c" = none ∧
      ∃ c', ((shelfCrud.read (finding found) "c").run halfRead).run () =
          ((.ok (some (h 2)), c'), ()) ∧
        c'.memo.find? shelfCrud.side shelfCrud.type "c" = some (h 2) ∧
        c'.entity? (h 2) = some ("c", 8) ∧ c'.entity? (h 0) = some ("a", 9) ∧
        c'.recordAt? (Memo.slot .cloud shelfCrud.type "b") = some (h 1) ∧
        c'.entity? (h 1) = none := by
  intro found h
  obtain ⟨answer, c', hrun, -, hown, -, hlast, hslots, hentities⟩ := read_last_of_each_key
    (Set.injOn_singleton _ _) (Set.mem_singleton shelfCrud.type) (finding found) housed_halfRead
    (fun _ _ hs => type_of_halfRead hs) (show halfRead.memo.find? _ _ "c" = none from rfl)
    (rfl : (((finding found).read (some "c")).run _).run () = _)
  obtain ⟨k, rfl, hfound, hheld⟩ := hown ("c", 8) (by decide)
  obtain rfl : k = h 2 := by
    have hanswer : ((shelfCrud.read (finding found) "c").run halfRead).run () =
        ((.ok (some (h 2)), _), _) := rfl
    exact Option.some.inj (Except.ok.inj (congrArg (·.1.1) (hrun.symm.trans hanswer)))
  obtain ⟨k, -, hheld', hbefore⟩ := hlast "a" ("a", 9) (by decide)
  obtain rfl := hbefore (h 0) (by decide)
  have hother : halfRead.memo.find? shelfCrud.side shelfCrud.type "b" = some (h 1) := by decide
  refine ⟨rfl, c', hrun, hfound, hheld, hheld', (hslots _ (by decide)).trans (by decide), ?_⟩
  -- no entity was found of the key that is being read
  refine (hentities (h 1) (sound_halfRead.has (find?_eq_some.mp hother).1) ?_).trans (by decide)
  intro e he k hk hplace
  have hkeys : ∀ e ∈ found, shelfCrud.keyOf e ≠ "b" := by decide
  exact hkeys e he (housed_halfRead.find?_inj hk hother hplace.symm)

end Crud

end Reconcile
