import Mathlib.Data.List.Basic
import Reconcile.Proofs.Cache.Phases

/-!
# A cache that mirrors what its side holds

What a side holds is a map from keys to entities (`Content`). A cache **mirrors** a content if
whatever is found under a key is a filled record with the entity that the content has under the key,
and no record is found under two keys (`Crud.Mirrors`). Nothing has to be found: a key of the
content without a record is asked for.

In the middle of a call some keys do not mirror the content: a creation has put its inputs under
their keys and does not know yet what became of them, a read has put a placeholder under its key.
These keys are *pending*, and the phases of a call add and remove them.

* **Merging** an entity stores it in the content as well: `Crud.Mirrors.mergeInto`.
* **Settling** an entity stores it in the content and ends the wait for its input's key, whatever
  keys the other inputs and entities of the batch have: `Crud.Mirrors.settle`.
* **Vacating** slots is free: `Crud.Mirrors.of_vacated`.
-/

namespace Reconcile

/-- What a side holds under its keys. -/
abbrev Content (α : Type) := String → Option α

namespace Content

variable {α : Type}

/-- The content after an entity was stored under its key. -/
def store (keyOf : α → String) (content : Content α) (e : α) : Content α := fun key =>
  if key = keyOf e then some e else content key

/-- The content after entities were stored one after the other. -/
def storeAll (keyOf : α → String) (content : Content α) (es : List α) : Content α :=
  es.foldl (store keyOf) content

/-- The content after keys were deleted. -/
def without (content : Content α) (keys : List String) : Content α := fun key =>
  if key ∈ keys then none else content key

/-- Storing what is there already changes nothing. -/
theorem store_of_mem {keyOf : α → String} {content : Content α} {e : α}
    (he : content (keyOf e) = some e) : content.store keyOf e = content := funext fun key => by
  unfold store
  split_ifs with hkey
  · rw [hkey, he]
  · rfl

theorem storeAll_of_mem {keyOf : α → String} {content : Content α} {es : List α}
    (h : ∀ e ∈ es, content (keyOf e) = some e) : content.storeAll keyOf es = content := by
  induction es with
  | nil => rfl
  | cons e es ih =>
    obtain ⟨he, h⟩ := List.forall_mem_cons.mp h
    rw [storeAll, List.foldl_cons, store_of_mem he]
    exact ih h

end Content

namespace Crud

open Cache

variable {α : Type} {crud : Crud α} {content content' : Content α} {pending pending' : List String}
  {c c' : Cache α}

variable (crud content pending c) in
/-- Under every key that is not pending, nothing is found or a filled record with the entity that
the content has under the key. No record is found under two keys. -/
structure Mirrors : Prop where
  sound : c.Sound
  single : ∀ {key key' h h'}, c.memo.find? crud.side crud.type key = some h →
    c.memo.find? crud.side crud.type key' = some h' → h.place = h'.place → key = key'
  shows : ∀ {key h}, c.memo.find? crud.side crud.type key = some h → key ∉ pending →
    ∃ e, c.entity? h = some e ∧ content key = some e

/-- A cache in which nothing is found mirrors anything. -/
theorem mirrors_of_vacant (hc : c.Sound)
    (hvacant : ∀ key, c.memo.find? crud.side crud.type key = none) :
    crud.Mirrors content pending c :=
  ⟨hc, fun hk => absurd hk (by simp [hvacant]), fun hk => absurd hk (by simp [hvacant])⟩

/-- What is found under the keys after slots were vacated. -/
theorem find?_evictAll (keys : List String) (c : Cache α) (key : String) :
    (crud.evictAll keys c).memo.find? crud.side crud.type key =
      if key ∈ keys then none else c.memo.find? crud.side crud.type key := by
  induction keys generalizing c with
  | nil => simp [evictAll]
  | cons first keys ih =>
    have hrest := ih (c.evict crud.side crud.type first)
    rw [find?_evict] at hrest
    refine hrest.trans ?_
    by_cases hmem : key ∈ keys <;> simp [hmem]

namespace Mirrors

/-- Slots may be vacated, keys become pending, and the content change under pending keys. -/
theorem of_vacated (h : crud.Mirrors content pending c) (hc' : c'.Sound)
    (hentity : ∀ k, c'.entity? k = c.entity? k)
    (hsub : ∀ {key k}, c'.memo.find? crud.side crud.type key = some k →
      c.memo.find? crud.side crud.type key = some k ∧
        (key ∉ pending' → key ∉ pending ∧ content' key = content key)) :
    crud.Mirrors content' pending' c' := by
  refine ⟨hc', fun hk hk' hplace => h.single (hsub hk).1 (hsub hk').1 hplace, fun hk hpending => ?_⟩
  obtain ⟨hfound, hfree⟩ := hsub hk
  obtain ⟨hnot, hsame⟩ := hfree hpending
  rw [hentity, hsame]
  exact h.shows hfound hnot

/-- A cache that mirrors one content mirrors another that agrees with it under all keys that are
not pending. -/
theorem congr (h : crud.Mirrors content pending c)
    (hsame : ∀ key ∉ pending', key ∉ pending ∧ content' key = content key) :
    crud.Mirrors content' pending' c :=
  h.of_vacated h.sound (fun _ => rfl) fun hk => ⟨hk, hsame _⟩

/-- A record is put under a key, and has left all other keys. If the key is not pending afterwards,
the record holds what the content has there. Under another key is found what was found there before,
with the same entity. -/
theorem of_put (h : crud.Mirrors content pending c) (hc' : c'.Sound) {key₀ : String} {h₀ : Handle}
    (hput : c'.memo.find? crud.side crud.type key₀ = some h₀)
    (hother : ∀ {key k}, key ≠ key₀ → c'.memo.find? crud.side crud.type key = some k →
      c.memo.find? crud.side crud.type key = some k ∧ k.place ≠ h₀.place ∧
        c'.entity? k = c.entity? k ∧
        (key ∉ pending' → key ∉ pending ∧ content' key = content key))
    (hshows : key₀ ∉ pending' → ∃ e, c'.entity? h₀ = some e ∧ content' key₀ = some e) :
    crud.Mirrors content' pending' c' := by
  have hthis : ∀ {k}, c'.memo.find? crud.side crud.type key₀ = some k → k = h₀ := fun {k} hk => by
    rw [hput] at hk
    exact (Option.some.inj hk).symm
  refine ⟨hc', fun {key key' k k'} hk hk' hplace => ?_, fun {key k} hk hpending => ?_⟩
  · by_cases h₁ : key = key₀ <;> by_cases h₂ : key' = key₀
    · rw [h₁, h₂]
    · subst h₁
      obtain rfl := hthis hk
      exact absurd hplace.symm (hother h₂ hk').2.1
    · subst h₂
      obtain rfl := hthis hk'
      exact absurd hplace (hother h₁ hk).2.1
    · exact h.single (hother h₁ hk).1 (hother h₂ hk').1 hplace
  · by_cases hkey : key = key₀
    · subst hkey
      obtain rfl := hthis hk
      exact hshows hpending
    · obtain ⟨hold, -, hentity, hfree⟩ := hother hkey hk
      obtain ⟨hnot, hsame⟩ := hfree hpending
      rw [hentity, hsame]
      exact h.shows hold hnot

/-! ### Merging -/

/-- **Merging** an entity under its key stores it in the content. The candidate must not be found
under another key. -/
theorem mergeInto {e : α} {candidate : Option Handle}
    (h : crud.Mirrors content (crud.keyOf e :: pending) c) (hcand : c.Admits crud.type candidate)
    (hfree : ∀ p ∈ candidate, ∀ {key k}, c.memo.find? crud.side crud.type key = some k →
      k.place = p.place → key = crud.keyOf e) :
    crud.Mirrors (content.store crud.keyOf e) pending
      (c.mergeInto crud.side crud.type (crud.keyOf e) candidate e).2 := by
  have hfind := find?_mergeInto crud.side crud.type (crud.keyOf e) e hcand
  have hentity := entity?_mergeInto crud.side crud.type (crud.keyOf e) e h.sound hcand
  have hsound := h.sound.mergeInto crud.side crud.type (crud.keyOf e) e hcand
  -- the record of the entity is found under no other key
  have hother : ∀ {key k}, key ≠ crud.keyOf e → c.memo.find? crud.side crud.type key = some k →
      k.place ≠ (c.mergeInto crud.side crud.type (crud.keyOf e) candidate e).1.place := by
    intro key k hne hk hplace
    rw [fst_mergeInto] at hplace
    cases hfound : c.memo.find? crud.side crud.type (crud.keyOf e) with
    | some k' =>
      rw [hfound] at hplace
      exact hne (h.single hk hfound hplace)
    | none =>
      rw [hfound] at hplace
      cases candidate with
      | some p => exact hne (hfree p rfl hk hplace)
      | none =>
        -- a new record is in no slot
        have hhas := h.sound.has (find?_eq_some.mp hk).1
        exact absurd hhas (Nat.not_lt.mpr (Nat.le_of_eq hplace.symm))
  refine h.of_put hsound ((hfind _).trans (if_pos rfl)) (fun {key k} hne hk => ?_)
    fun _ => ⟨e, (hentity _).trans (if_pos rfl), if_pos rfl⟩
  rw [hfind, if_neg hne] at hk
  exact ⟨hk, hother hne hk, (hentity k).trans (if_neg (hother hne hk)), fun hpending =>
    ⟨List.not_mem_cons_of_ne_of_not_mem hne hpending, if_neg hne⟩⟩

/-- Merging an entity into the record that is there or into a new one. -/
theorem merge (h : crud.Mirrors content (crud.keyOf e :: pending) c) :
    crud.Mirrors (content.store crud.keyOf e) pending
      (c.merge crud.side crud.type (crud.keyOf e) e).2 :=
  h.mergeInto (admits_none crud.type) nofun

/-- More keys may become pending. -/
theorem cons (h : crud.Mirrors content pending c) (key : String) :
    crud.Mirrors content (key :: pending) c :=
  h.congr fun _ hk => ⟨fun hmem => hk (List.mem_cons_of_mem _ hmem), rfl⟩

/-- Merging entities stores them in the content, and their keys are pending no longer. -/
theorem mergeAll_of_pending {es : List α}
    (h : crud.Mirrors content (es.map crud.keyOf ++ pending) c) :
    crud.Mirrors (content.storeAll crud.keyOf es) pending (crud.mergeAll es c).2 := by
  induction es generalizing content c with
  | nil => exact h
  | cons e es ih => exact ih h.merge

theorem mergeAll (h : crud.Mirrors content pending c) (es : List α) :
    crud.Mirrors (content.storeAll crud.keyOf es) pending (crud.mergeAll es c).2 :=
  mergeAll_of_pending (h.congr fun _ hk => ⟨fun hmem => hk (List.mem_append_right _ hmem), rfl⟩)

/-! ### Creating -/

/-- Reserving slots for the inputs of a creation leaves the keys of the fresh reservations
pending. -/
theorem reserveAll (h : crud.Mirrors content pending c) (es : List α) :
    crud.Mirrors content
      ((((crud.reserveAll es c).1.filter fun r => r.fresh).map fun r => r.key) ++ pending)
      (crud.reserveAll es c).2 := by
  induction es generalizing pending c with
  | nil => exact h
  | cons e es ih =>
    cases hfound : c.memo.find? crud.side crud.type (crud.keyOf e) with
    | some k =>
      rw [reserveAll_cons_of_some crud hfound]
      exact ih h
    | none =>
      rw [reserveAll_cons_of_none crud hfound]
      -- the slot holds the input, which the side need not have: its key is pending
      have hmerge : crud.Mirrors content (crud.keyOf e :: pending)
          (c.merge crud.side crud.type (crud.keyOf e) e).2 := by
        refine ((h.cons (crud.keyOf e)).merge).congr fun key hkey => ?_
        obtain ⟨hne, hnot⟩ := not_or.mp fun hmem => hkey (List.mem_cons.mpr hmem)
        exact ⟨hnot, (if_neg hne).symm⟩
      refine (ih hmerge).congr fun key hkey => ⟨fun hmem => hkey ?_, rfl⟩
      simp only [List.filter_cons_of_pos, List.map_cons, List.mem_append, List.mem_cons] at hmem ⊢
      tauto

/-- **Settling** an entity stores it in the content, and its input's key is pending no longer. -/
theorem settle {r : Reserved} (h : crud.Mirrors content (r.key :: pending) c)
    (hr : c.memo.find? crud.side crud.type r.key = some r.record) (e : α) :
    crud.Mirrors (content.store crud.keyOf e) pending (crud.settle r e c).2 := by
  have hholds := holds_of_find? h.sound hr
  have hsound := (crud.calm_settle e h.sound hholds).sound
  have hfind := find?_settle crud e h.sound hholds
  have hentity := entity?_settle crud e h.sound hholds
  have hfst := fst_settle crud e r c
  generalize crud.settle r e c = result at hsound hfind hentity hfst ⊢
  obtain ⟨held, c'⟩ := result
  simp only at hsound hfind hentity hfst ⊢
  refine h.of_put hsound ((hfind _).trans (if_pos rfl)) (fun {key k} hne hk => ?_)
    fun _ => ⟨e, (hentity held).trans (if_pos (Or.inl rfl)), if_pos rfl⟩
  rw [hfind, if_neg hne] at hk
  split_ifs at hk with hleft
  -- what is found under another key is neither the reserved record nor the entity's
  have hold : key ≠ r.key := fun heq => by
    subst heq
    exact hleft ⟨rfl, hr⟩
  have hreserved : k.place ≠ r.record.place := fun hplace => hold (h.single hk hr hplace)
  have hheld : k.place ≠ held.place := by
    intro hplace
    cases hfound : c.memo.find? crud.side crud.type (crud.keyOf e) with
    | some k' =>
      rw [hfst, hfound] at hplace
      exact hne (h.single hk hfound hplace)
    | none =>
      rw [hfst, hfound] at hplace
      exact hreserved hplace
  have hunchanged : ¬(k.place = held.place ∨ crud.keyOf e ≠ r.key ∧ k.place = r.record.place) :=
    fun hor => hor.elim hheld fun hand => hreserved hand.2
  exact ⟨hk, hheld, (hentity k).trans (if_neg hunchanged), fun hpending =>
    ⟨List.not_mem_cons_of_ne_of_not_mem hold hpending, if_neg hne⟩⟩

/-- Settling a batch stores the created entities in the content, one after the other. -/
theorem settleAll {rs : List Reserved} {es : List α} (hlength : rs.length = es.length)
    (hdistinct : (rs.map fun r => r.key).Nodup)
    (hseated : ∀ r ∈ rs, c.memo.find? crud.side crud.type r.key = some r.record)
    (h : crud.Mirrors content (rs.map fun r => r.key) c) :
    crud.Mirrors (content.storeAll crud.keyOf es) [] (crud.settleAll rs es c).2 := by
  -- the keys of the inputs that are still to be settled are pending, also those that an entity of
  -- the batch has got meanwhile
  induction rs generalizing es content c with
  | nil =>
    obtain rfl := List.eq_nil_of_length_eq_zero hlength.symm
    exact h
  | cons r rs ih =>
    cases es with
    | nil => cases hlength
    | cons e es =>
      obtain ⟨hr, hseated⟩ := List.forall_mem_cons.mp hseated
      obtain ⟨hfirst, hdistinct⟩ := List.nodup_cons.mp hdistinct
      have hholds := holds_of_find? h.sound hr
      -- the other reservations stay where they are, also the one under the entity's new key
      have hstay : ∀ r' ∈ rs, (crud.settle r e c).2.memo.find? crud.side crud.type r'.key =
          some r'.record := fun r' hr' =>
        crud.find?_settle_of_seated e h.sound hholds
          (fun heq => hfirst (List.mem_map.mpr ⟨r', hr', heq⟩)) (hseated r' hr')
      exact ih (Nat.succ.inj hlength) hdistinct hstay (h.settle hr e)

/-- Undoing the reservations of a creation: their keys are pending no longer. -/
theorem rollBack {rs : List Reserved} (hdistinct : (rs.map fun r => r.key).Nodup)
    (hseated : ∀ r ∈ rs, c.memo.find? crud.side crud.type r.key = some r.record)
    (h : crud.Mirrors content ((rs.filter fun r => r.fresh).map fun r => r.key) c) :
    crud.Mirrors content [] (crud.rollBack rs c) := by
  induction rs generalizing c with
  | nil => exact h
  | cons r rs ih =>
    obtain ⟨hr, hseated⟩ := List.forall_mem_cons.mp hseated
    obtain ⟨hfirst, hdistinct⟩ := List.nodup_cons.mp hdistinct
    have htype := (find?_eq_some.mp hr).2
    unfold Crud.rollBack
    rw [List.foldl_cons]
    split_ifs with hfresh
    · have hfind := c.find?_evictRecord crud.side r.key r.record
      rw [htype] at hfind
      have hsound := (calm_evictRecord h.sound crud.side r.key r.record).sound
      refine ih hdistinct (fun r' hr' => ?_)
        (h.of_vacated hsound (fun _ => rfl) fun {key k} hk => ?_)
      · rw [hfind, if_neg fun hleft => hfirst (List.mem_map.mpr ⟨r', hr', hleft.1⟩)]
        exact hseated r' hr'
      · rw [hfind] at hk
        split_ifs at hk with hleft
        have hne : key ≠ r.key := fun heq => by
          subst heq
          exact hleft ⟨rfl, hr⟩
        refine ⟨hk, fun hpending => ⟨?_, rfl⟩⟩
        rw [List.filter_cons_of_pos hfresh, List.map_cons]
        exact List.not_mem_cons_of_ne_of_not_mem hne hpending
    · -- a record that was there before the call stays, and its key was never pending
      rw [List.filter_cons_of_neg (by simpa using hfresh)] at h
      exact ih hdistinct hseated h

/-! ### Deleting -/

/-- Vacating the slots of keys deletes them from the content. -/
theorem evictAll (h : crud.Mirrors content [] c) (keys : List String) :
    crud.Mirrors (content.without keys) [] (crud.evictAll keys c) := by
  refine h.of_vacated (crud.calm_evictAll keys h.sound).sound (crud.entity?_evictAll keys c)
    fun {key k} hk => ?_
  rw [find?_evictAll] at hk
  split_ifs at hk with hmem
  exact ⟨hk, fun _ => ⟨List.not_mem_nil, if_neg hmem⟩⟩

/-! ### Reading -/

section Read

variable {key : String}

/-- While the backend is asked for a key, the key is pending. -/
theorem reserve (h : crud.Mirrors content [] c)
    (hvacant : c.memo.find? crud.side crud.type key = none) :
    crud.Mirrors content [key] (c.reserve crud.side crud.type key).2 := by
  have hrecord := c.record_reserve crud.side crud.type key
  rw [hvacant, Option.getD_none] at hrecord
  have hfind := c.find?_reserve crud.side crud.type key
  rw [hrecord] at hfind
  refine h.of_put (h.sound.reserve crud.side crud.type key) ((hfind _).trans (if_pos rfl))
    (fun {key' k} hne hk => ?_) fun hpending => absurd (List.mem_singleton_self key) hpending
  rw [hfind, if_neg hne] at hk
  -- the placeholder is a new record
  have hnew : k.place ≠ (c.nextRecord crud.type).place :=
    Nat.ne_of_lt (h.sound.has (find?_eq_some.mp hk).1)
  exact ⟨hk, hnew, c.entity?_reserve crud.side crud.type key k, fun _ => ⟨List.not_mem_nil, rfl⟩⟩

/-- A read whose backend failed leaves its key free. -/
theorem abandonRead {p : Handle} (h : crud.Mirrors content [key] c)
    (hp : c.memo.find? crud.side crud.type key = some p) :
    crud.Mirrors content [] (crud.abandonRead key p c) := by
  refine h.of_vacated (calm_evictRecord h.sound crud.side key p).sound (fun _ => rfl)
    fun {key' k} hk => ?_
  rw [crud.find?_abandonRead hp] at hk
  split_ifs at hk with hne
  exact ⟨hk, fun _ => ⟨fun hmem => hne (List.mem_singleton.mp hmem), rfl⟩⟩

end Read

end Mirrors

end Crud

end Reconcile
