import Reconcile.Proofs.Cache.Kept
import Reconcile.Proofs.Cache.Mirror

/-!
# What a read finds

A backend that is asked for a key may find any entities, several of one key, or none of the key at
all. All of them are stored, the last one of each key for good. The read answers under the key that
was asked for if an entity of it was found, and otherwise under the key of the first entity
(`Crud.answerKey?`): with the record that is found under this key in the end, and so with the last
entity of the key (`Crud.Mirrors.finishRead`).
-/

namespace Reconcile

/-- Of the entities that were stored, the last one of a key is there. -/
theorem Content.storeAll_apply {α : Type} (keyOf : α → String) (content : Content α) (es : List α)
    (key : String) :
    content.storeAll keyOf es key =
      (es.reverse.find? fun e => decide (keyOf e = key)).or (content key) := by
  induction es generalizing content with
  | nil => rfl
  | cons e es ih =>
    rw [storeAll, List.foldl_cons, ← storeAll, ih, List.reverse_cons, List.find?_append,
      Option.or_assoc, store]
    by_cases hkey : keyOf e = key
    · simp [hkey]
    · simp [hkey, Ne.symm hkey]

namespace Crud

open Cache

variable {α : Type} {crud : Crud α} {content : Content α} {pending : List String} {c : Cache α}
  {key key' : String} {p : Handle}

/-- The key under which a read that found entities has its answer. -/
def answerKey? (crud : Crud α) (key : String) (found : List α) : Option String :=
  if ∃ e ∈ found, crud.keyOf e = key then some key else found.head?.map crud.keyOf

theorem answerKey?_of_mem {found : List α} (h : key ∈ found.map crud.keyOf) :
    crud.answerKey? key found = some key :=
  if_pos (List.mem_map.mp h)

theorem answerKey?_of_not_mem {found : List α} (h : key ∉ found.map crud.keyOf) :
    crud.answerKey? key found = found.head?.map crud.keyOf :=
  if_neg (mt List.mem_map.mpr h)

theorem answerKey?_eq_none_iff {found : List α} :
    crud.answerKey? key found = none ↔ found = [] := by
  by_cases h : key ∈ found.map crud.keyOf
  · rw [answerKey?_of_mem h]
    exact iff_of_false (Option.some_ne_none key) (List.ne_nil_of_mem h ∘ List.map_eq_nil_iff.mpr)
  · rw [answerKey?_of_not_mem h]
    simp

/-- The key of an answer is the key of an entity that was found. -/
theorem exists_mem_of_answerKey? {found : List α} (h : crud.answerKey? key found = some key') :
    ∃ e ∈ found, crud.keyOf e = key' := by
  unfold answerKey? at h
  split_ifs at h with hany
  · cases h
    exact hany
  · obtain ⟨e, he, rfl⟩ := Option.map_eq_some_iff.mp h
    exact ⟨e, List.mem_of_head? he, rfl⟩

/-- What a read has found last of a key. -/
def lastOf (crud : Crud α) (found : List α) (key : String) : Option α :=
  found.reverse.find? fun e => decide (crud.keyOf e = key)

theorem lastOf_cons (crud : Crud α) (e : α) (found : List α) (key : String) :
    crud.lastOf (e :: found) key =
      (crud.lastOf found key).or (if crud.keyOf e = key then some e else none) := by
  unfold lastOf
  rw [List.reverse_cons, List.find?_append]
  by_cases hkey : crud.keyOf e = key <;> simp [hkey]

theorem lastOf_eq_none_iff {found : List α} :
    crud.lastOf found key = none ↔ key ∉ found.map crud.keyOf := by
  simp [lastOf]

theorem mem_of_lastOf {found : List α} {e : α} (h : crud.lastOf found key = some e) :
    key ∈ found.map crud.keyOf := by
  by_contra hnew
  rw [lastOf_eq_none_iff.mpr hnew] at h
  cases h

/-! ### Taking in what was found -/

/-- As long as its placeholder is found under the key, a read takes entities in by merging them. -/
theorem snd_sight (found : List α) (seen : Sighting)
    (hp : c.memo.find? crud.side crud.type key = some p) :
    (crud.sight key p found seen c).2 = (crud.mergeAll found c).2 := by
  induction found generalizing seen c with
  | nil => rfl
  | cons e es ih =>
    have hseat := find?_mergeInto_of_some crud.side crud.type (crud.keyOf e) e
      (admits_none crud.type) hp
    unfold sight
    simp only
    split_ifs with hkey
    · subst hkey
      rw [mergeInto_of_some crud.side crud.type (crud.keyOf e) e hp]
      exact ih _ hseat
    · exact ih _ hseat

/-- An entity of the key is sighted if it is among those that were found. -/
theorem hit_sight_isSome_iff (found : List α) (c : Cache α) :
    (crud.sight key p found ⟨none, none⟩ c).1.hit.isSome ↔ key ∈ found.map crud.keyOf := by
  rw [hit_sight_isSome]
  simp

/-- What a read leaves: the entities that it found, without the placeholder if none of them is of
its key. -/
theorem snd_finishRead (found : List α) (hp : c.memo.find? crud.side crud.type key = some p) :
    (crud.finishRead key p found c).2 =
      if key ∈ found.map crud.keyOf then (crud.mergeAll found c).2
      else crud.abandonRead key p (crud.mergeAll found c).2 := by
  have hhit : (crud.sight key p found ⟨none, none⟩ c).1.hit.isSome ↔ _ :=
    hit_sight_isSome_iff found c
  rw [← snd_sight found ⟨none, none⟩ hp]
  unfold finishRead
  simp only
  split
  · rename_i h hseen
    rw [if_pos (hhit.mp (by rw [hseen]; rfl))]
  · rename_i hseen
    rw [if_neg (mt hhit.mpr (by simp [hseen]))]
    rfl

/-- The first entity of another key that was sighted is not forgotten. -/
theorem other_sight_of_some {h : Handle} (found : List α) {seen : Sighting} (c : Cache α)
    (hseen : seen.other = some h) : (crud.sight key p found seen c).1.other = some h := by
  induction found generalizing seen c with
  | nil => exact hseen
  | cons e es ih =>
    unfold sight
    simp only
    split_ifs
    · exact ih _ hseen
    · exact ih _ (by rw [hseen, Option.getD_some])

/-- If no entity of the key was found, the answer is the record of the first one. -/
theorem fst_finishRead_of_not_mem {found : List α} (hnew : key ∉ found.map crud.keyOf) :
    (crud.finishRead key p found c).1 = (found.head?.map crud.keyOf).bind
      ((crud.mergeAll found c).2.memo.find? crud.side crud.type) := by
  have hnone : (crud.sight key p found ⟨none, none⟩ c).1.hit = none := by
    rwa [← Option.not_isSome_iff_eq_none, hit_sight_isSome_iff]
  have hother : (crud.finishRead key p found c).1 =
      (crud.sight key p found ⟨none, none⟩ c).1.other := by
    unfold finishRead
    simp only [hnone]
  rw [hother]
  cases found with
  | nil => rfl
  | cons e es =>
    have hne : crud.keyOf e ≠ key := fun heq => hnew (by simp [heq])
    have hnone := admits_none (c := c) crud.type
    have hseat := (find?_mergeInto crud.side crud.type (crud.keyOf e) e hnone (crud.keyOf e)).trans
      (if_pos rfl)
    unfold sight
    simp only [if_neg hne, Option.getD_none]
    rw [other_sight_of_some es _ rfl]
    exact (crud.find?_mergeAll_of_some es hseat).symm

/-- **The answer of a read** is the record that is found in the end under the key of the answer. -/
theorem fst_finishRead (hc : c.Sound) (hp : c.memo.find? crud.side crud.type key = some p)
    (found : List α) :
    (crud.finishRead key p found c).1 = (crud.answerKey? key found).bind
      ((crud.finishRead key p found c).2.memo.find? crud.side crud.type) := by
  rw [snd_finishRead found hp]
  split_ifs with hin
  · have hcand := (holds_of_find? (r := ⟨key, p, true⟩) hc hp).admits
    rw [answerKey?_of_mem hin,
      fst_finishRead_of_mem hc (find?_eq_some.mp hp).1 hcand (List.mem_map.mp hin)]
    exact (crud.find?_mergeAll_of_some found hp).symm
  · rw [answerKey?_of_not_mem hin, fst_finishRead_of_not_mem hin]
    cases found with
    | nil => rfl
    | cons e es =>
      have hne : crud.keyOf e ≠ key := fun heq => hin (by simp [heq])
      have hleft := crud.find?_abandonRead (crud.find?_mergeAll_of_some (e :: es) hp) (crud.keyOf e)
      exact (hleft.trans (if_neg hne)).symm

/-- The keys of what was found are found when the read has ended. -/
theorem isSome_find?_finishRead {found : List α}
    (hp : c.memo.find? crud.side crud.type key = some p) {e : α} (he : e ∈ found) :
    ((crud.finishRead key p found c).2.memo.find? crud.side crud.type (crud.keyOf e)).isSome := by
  have hin : crud.keyOf e ∈ found.map crud.keyOf := List.mem_map_of_mem he
  have hmerged := (isSome_find?_mergeAll found c (crud.keyOf e)).mpr (Or.inl hin)
  rw [snd_finishRead found hp]
  split_ifs with hkey
  · exact hmerged
  · have hne : crud.keyOf e ≠ key := fun heq => hkey (heq ▸ hin)
    rwa [crud.find?_abandonRead (crud.find?_mergeAll_of_some found hp), if_neg hne]

/-- The answer is nothing only if nothing was found. -/
theorem fst_finishRead_eq_none_iff (hc : c.Sound)
    (hp : c.memo.find? crud.side crud.type key = some p) {found : List α} :
    (crud.finishRead key p found c).1 = none ↔ found = [] := by
  rw [fst_finishRead hc hp]
  cases hanswer : crud.answerKey? key found with
  | none => exact iff_of_true rfl (answerKey?_eq_none_iff.mp hanswer)
  | some key' =>
    obtain ⟨e, he, rfl⟩ := exists_mem_of_answerKey? hanswer
    refine iff_of_false ?_ (List.ne_nil_of_mem he)
    exact Option.isSome_iff_ne_none.mp (isSome_find?_finishRead hp he)

namespace Mirrors

/-- A key that is not pending shows what the content has under it. -/
theorem entity?_of_find? (h : crud.Mirrors content [] c) {k : String} {r : Handle}
    (hr : c.memo.find? crud.side crud.type k = some r) : c.entity? r = content k := by
  obtain ⟨e, he, hcontent⟩ := h.shows hr List.not_mem_nil
  rw [he, hcontent]

/-- **The answer of a read.** What was found is stored, and the answer is the record that is found
in the end under the key of the answer, with the entity that was stored there last. -/
theorem finishRead (h : crud.Mirrors content [key] c)
    (hp : c.memo.find? crud.side crud.type key = some p) (found : List α) :
    let c' := (crud.finishRead key p found c).2
    crud.Mirrors (content.storeAll crud.keyOf found) [] c' ∧
      (crud.finishRead key p found c).1 =
        (crud.answerKey? key found).bind (c'.memo.find? crud.side crud.type) ∧
      (crud.finishRead key p found c).1.map c'.entity? =
        (crud.answerKey? key found).map (content.storeAll crud.keyOf found) := by
  intro c'
  have hfst := fst_finishRead h.sound hp found
  have hmirrors : crud.Mirrors (content.storeAll crud.keyOf found) [] c' := by
    change crud.Mirrors _ _ (crud.finishRead key p found c).2
    rw [snd_finishRead found hp]
    split_ifs with hin
    · -- the key is pending no longer, since an entity of it was found
      refine mergeAll_of_pending (h.congr fun k hk => ⟨fun hmem => hk ?_, rfl⟩)
      rwa [List.mem_singleton.mp hmem, List.append_nil]
    · exact (h.mergeAll found).abandonRead (crud.find?_mergeAll_of_some found hp)
  refine ⟨hmirrors, hfst, ?_⟩
  rw [hfst]
  cases hanswer : crud.answerKey? key found with
  | none => rfl
  | some key' =>
    obtain ⟨e, he, rfl⟩ := exists_mem_of_answerKey? hanswer
    obtain ⟨r, hr⟩ := Option.isSome_iff_exists.mp (isSome_find?_finishRead hp he)
    rw [Option.bind_some, hr]
    exact congrArg some (hmirrors.entity?_of_find? hr)

end Mirrors

end Crud

end Reconcile
