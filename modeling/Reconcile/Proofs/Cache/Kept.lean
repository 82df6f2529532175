import Mathlib.Data.Set.Function
import Reconcile.Proofs.Cache.Phases

/-!
# What the phases of a call keep

Through every phase of a call a slot that is taken keeps the record in it, except the slots that the
phase is there to vacate, its *loose* ones. A slot is entered by records of the call's own type and
under its own keys only, and a record that is filled stays filled. All three are said of a phase by
`Crud.Keeps`.

* **Merging, reserving and taking in what was found** have no loose slots: `Crud.keeps_mergeAll`,
  `Crud.keeps_reserveAll`, `Crud.keeps_sight`.
* **Settling** vacates the slot of an input whose entity got another key: `Crud.keeps_settleAll`.
* **Rolling back** vacates the slots of the fresh reservations, **abandoning** a read the slot of
  its key, and **deleting** the slots of its keys: `Crud.keeps_rollBack`, `Crud.keeps_evictRecord`,
  `Crud.keeps_evictAll`.

Since a slot keeps its record, every entity that is merged under the slot's key is stored in that
very record, which holds it right after: `Crud.stored_takeIn`, `Crud.stored_settleAll`.

A slot is taken, to a type, by records of this type only. So all this is about slots that hold no
record of another type (`Crud.Knows`), as they do when types are told apart by their kinds
(`Crud.owns_of_injOn`).
-/

namespace Reconcile

open Cache

namespace Crud

variable {α : Type} {crud : Crud α} {c c' c'' : Cache α} {loose loose' : Slot → Prop}

/-! ### Whose slots are whose -/

/-- If the slot is one of the entity type's, a record in it is found there, being of the type. -/
def Knows (crud : Crud α) (s : Slot) (h : Handle) : Prop :=
  ∀ key, s = Memo.slot crud.side crud.type key → h.type = crud.type

/-- The slots of a side of an entity type hold records of this type only. -/
def Owns (crud : Crud α) (c : Cache α) : Prop := ∀ {s h}, c.recordAt? s = some h → crud.Knows s h

/-- When types are told apart by their kinds, each owns its slots. -/
theorem owns_of_injOn {types : Set EntityType} (hkinds : types.InjOn EntityType.kind)
    (hc : c.Sound) (htypes : ∀ s h, c.recordAt? s = some h → h.type ∈ types)
    (hcrud : crud.type ∈ types) : crud.Owns c :=
  fun hs _ hslot =>
    hkinds (htypes _ _ hs) hcrud ((hc.kind_eq hs).trans (congrArg Slot.kind hslot))

/-- A slot in which nothing is found is vacant if its type owns it. -/
theorem Owns.vacant (howns : crud.Owns c) {key : String}
    (hnone : c.memo.find? crud.side crud.type key = none) :
    c.recordAt? (Memo.slot crud.side crud.type key) = none := by
  by_contra hne
  obtain ⟨h, hs⟩ := Option.ne_none_iff_exists'.mp hne
  rw [find?_eq_some.mpr ⟨hs, howns hs key rfl⟩] at hnone
  cases hnone

/-- What is in a slot of the type is found there. -/
theorem Knows.find? {key : String} {h : Handle}
    (hknows : crud.Knows (Memo.slot crud.side crud.type key) h)
    (hs : c.recordAt? (Memo.slot crud.side crud.type key) = some h) :
    c.memo.find? crud.side crud.type key = some h :=
  find?_eq_some.mpr ⟨hs, hknows key rfl⟩

/-! ### Keeping -/

/-- **Keeping**: from one cache to the next, slots that are not loose keep their records, only
records of the type enter slots, in slots of the type, and filled records stay filled. -/
structure Keeps (crud : Crud α) (loose : Slot → Prop) (c c' : Cache α) : Prop where
  slot : ∀ {s h}, crud.Knows s h → ¬ loose s → c.recordAt? s = some h → c'.recordAt? s = some h
  entered : ∀ {s h}, c'.recordAt? s = some h → c.recordAt? s = some h ∨
    h.type = crud.type ∧ ∃ key, s = Memo.slot crud.side crud.type key
  filled : ∀ {h}, c.entity? h ≠ none → c'.entity? h ≠ none

theorem Keeps.refl (crud : Crud α) (loose : Slot → Prop) (c : Cache α) : crud.Keeps loose c c :=
  ⟨fun _ _ => id, Or.inl, id⟩

theorem Keeps.trans (h₁ : crud.Keeps loose c c') (h₂ : crud.Keeps loose c' c'') :
    crud.Keeps loose c c'' :=
  ⟨fun hknows hloose hs => h₂.slot hknows hloose (h₁.slot hknows hloose hs),
    fun hs => (h₂.entered hs).elim h₁.entered Or.inr, fun he => h₂.filled (h₁.filled he)⟩

theorem Keeps.mono (h : crud.Keeps loose c c') (hsub : ∀ s, loose s → loose' s) :
    crud.Keeps loose' c c' :=
  ⟨fun hknows hloose => h.slot hknows fun hs => hloose (hsub _ hs), h.entered, h.filled⟩

/-- The slots of other types are left as they are. -/
theorem Keeps.recordAt?_of_other (h : crud.Keeps loose c c') {s : Slot}
    (hother : ∀ key, s ≠ Memo.slot crud.side crud.type key) (hloose : ¬ loose s) :
    c'.recordAt? s = c.recordAt? s := by
  refine Option.ext fun k => ⟨fun hs => ?_, fun hs => ?_⟩
  · rcases h.entered hs with hs | ⟨-, key, hslot⟩
    · exact hs
    · exact absurd hslot (hother key)
  · exact h.slot (fun key hslot => absurd hslot (hother key)) hloose hs

/-! ### The operations of a cache -/

/-- Vacating slots keeps those that are left. -/
theorem keeps_of_vacated (hrecords : c'.records = c.records)
    (hsub : ∀ {s h}, c'.recordAt? s = some h → c.recordAt? s = some h)
    (hleft : ∀ {s}, ¬ loose s → c'.recordAt? s = c.recordAt? s) : crud.Keeps loose c c' :=
  ⟨fun _ hloose hs => (hleft hloose).trans hs, fun hs => Or.inl (hsub hs), fun he => by
    rwa [entity?, hrecords]⟩

theorem keeps_evictRecord (crud : Crud α) (key : String) {h : Handle} (htype : h.type = crud.type)
    (c : Cache α) :
    crud.Keeps (· = Memo.slot crud.side crud.type key) c (c.evictRecord crud.side key h) := by
  refine keeps_of_vacated rfl (fun hs => ?_) fun hloose => ?_
  · rw [recordAt?_evictRecord] at hs
    split_ifs at hs
    exact hs
  · rw [recordAt?_evictRecord, htype, if_neg fun hheld => hloose hheld.1]

theorem keeps_reserve (crud : Crud α) (key : String) (c : Cache α) :
    crud.Keeps (fun _ => False) c (c.reserve crud.side crud.type key).2 := by
  refine ⟨fun hknows _ hs => ?_, fun hs => ?_, fun he => by rwa [entity?_reserve]⟩
  · rw [recordAt?_reserve]
    split_ifs with hslot
    · subst hslot
      rw [record_reserve, hknows.find? hs, Option.getD_some]
    · exact hs
  · rw [recordAt?_reserve] at hs
    split_ifs at hs with hslot
    · cases hs
      exact Or.inr ⟨type_reserve _ _ _ _, key, hslot⟩
    · exact Or.inl hs

theorem keeps_mergeInto (hc : c.Sound) (key : String) {candidate : Option Handle}
    (hcand : c.Admits crud.type candidate) (e : α) :
    crud.Keeps (fun _ => False) c (c.mergeInto crud.side crud.type key candidate e).2 := by
  refine ⟨fun hknows _ hs => ?_, fun hs => ?_, entity?_mergeInto_ne_none hc crud.side key hcand e⟩
  · rw [recordAt?_mergeInto _ _ _ _ hcand]
    split_ifs with hslot
    · subst hslot
      rw [fst_mergeInto, hknows.find? hs, Option.getD_some]
    · exact hs
  · rw [recordAt?_mergeInto _ _ _ _ hcand] at hs
    split_ifs at hs with hslot
    · cases hs
      exact Or.inr ⟨type_mergeInto _ _ _ _ hcand, key, hslot⟩
    · exact Or.inl hs

/-! ### The phases -/

theorem keeps_mergeAll (es : List α) (hc : c.Sound) :
    crud.Keeps (fun _ => False) c (crud.mergeAll es c).2 := by
  induction es generalizing c with
  | nil => exact Keeps.refl crud _ c
  | cons e es ih =>
    have hnone := admits_none (c := c) crud.type
    exact (keeps_mergeInto hc _ hnone e).trans (ih (hc.mergeInto _ _ _ e hnone))

theorem keeps_reserveAll (es : List α) (hc : c.Sound) :
    crud.Keeps (fun _ => False) c (crud.reserveAll es c).2 := by
  induction es generalizing c with
  | nil => exact Keeps.refl crud _ c
  | cons e es ih =>
    cases hfound : c.memo.find? crud.side crud.type (crud.keyOf e) with
    | some h =>
      rw [reserveAll_cons_of_some crud hfound]
      exact ih hc
    | none =>
      have hnone := admits_none (c := c) crud.type
      rw [reserveAll_cons_of_none crud hfound]
      exact (keeps_mergeInto hc _ hnone e).trans (ih (hc.mergeInto _ _ _ e hnone))

theorem keeps_rollBack {rs : List Reserved} (htypes : ∀ r ∈ rs, r.record.type = crud.type)
    (c : Cache α) :
    crud.Keeps (fun s => ∃ r ∈ rs, r.fresh ∧ s = Memo.slot crud.side crud.type r.key) c
      (crud.rollBack rs c) := by
  induction rs generalizing c with
  | nil => exact Keeps.refl crud _ c
  | cons r rs ih =>
    obtain ⟨htype, htypes⟩ := List.forall_mem_cons.mp htypes
    have hrest : ∀ s, (∃ r ∈ rs, r.fresh ∧ s = Memo.slot crud.side crud.type r.key) →
        ∃ r' ∈ r :: rs, r'.fresh ∧ s = Memo.slot crud.side crud.type r'.key :=
      fun s ⟨r', hr', hs⟩ => ⟨r', List.mem_cons_of_mem r hr', hs⟩
    unfold rollBack
    rw [List.foldl_cons]
    split_ifs with hfresh
    · have hevict : crud.Keeps
          (fun s => ∃ r' ∈ r :: rs, r'.fresh ∧ s = Memo.slot crud.side crud.type r'.key) c
          (c.evictRecord crud.side r.key r.record) :=
        (keeps_evictRecord crud r.key htype c).mono fun s hs =>
          ⟨r, List.mem_cons_self, hfresh, hs⟩
      exact hevict.trans ((ih htypes _).mono hrest)
    · exact (ih htypes c).mono hrest

theorem keeps_evictAll (keys : List String) (c : Cache α) :
    crud.Keeps (fun s => ∃ key ∈ keys, s = Memo.slot crud.side crud.type key) c
      (crud.evictAll keys c) := by
  induction keys generalizing c with
  | nil => exact Keeps.refl crud _ c
  | cons key keys ih =>
    have hevict : crud.Keeps
        (fun s => ∃ key' ∈ key :: keys, s = Memo.slot crud.side crud.type key') c
        (c.evict crud.side crud.type key) := by
      refine keeps_of_vacated rfl (fun hs => ?_) fun hloose => ?_
      · rw [recordAt?_evict] at hs
        split_ifs at hs
        exact hs
      · rw [recordAt?_evict, if_neg fun hs => hloose ⟨key, List.mem_cons_self, hs⟩]
    exact hevict.trans ((ih _).mono fun s ⟨key', hkey', hs⟩ =>
      ⟨key', List.mem_cons_of_mem key hkey', hs⟩)

/-! ### Settling -/

/-- The created entities of some inputs got other keys than these, and the slot is that of one such
input. -/
def Moves (crud : Crud α) (rs : List Reserved) (es : List α) (s : Slot) : Prop :=
  ∃ x ∈ rs.zip es, crud.keyOf x.2 ≠ x.1.key ∧ s = Memo.slot crud.side crud.type x.1.key

theorem keeps_settle {r : Reserved} (e : α) (hc : c.Sound) (hr : crud.Holds c r) :
    crud.Keeps (fun s => crud.keyOf e ≠ r.key ∧ s = Memo.slot crud.side crud.type r.key) c
      (crud.settle r e c).2 := by
  refine ⟨fun hknows hloose hs => ?_, fun hs => ?_, fun he => ?_⟩
  · rw [recordAt?_settle crud e hc hr]
    split_ifs with hslot hmoved
    · subst hslot
      rw [fst_settle, hknows.find? hs, Option.getD_some]
    · -- an entity that kept its key has its slot above
      refine absurd ⟨fun hkey => hslot ?_, hmoved.1⟩ hloose
      rw [hkey, hmoved.1]
    · exact hs
  · rw [recordAt?_settle crud e hc hr] at hs
    split_ifs at hs with hslot
    · cases hs
      exact Or.inr ⟨type_settle crud e hr, _, hslot⟩
    · exact Or.inl hs
  · rw [entity?_settle crud e hc hr]
    split_ifs
    · exact Option.some_ne_none e
    · exact he

theorem keeps_settleAll {rs : List Reserved} (es : List α) (hc : c.Sound)
    (hrs : ∀ r ∈ rs, crud.Holds c r) :
    crud.Keeps (crud.Moves rs es) c (crud.settleAll rs es c).2 := by
  induction rs generalizing es c with
  | nil => cases es <;> exact Keeps.refl crud _ c
  | cons r rs ih =>
    cases es with
    | nil => exact Keeps.refl crud _ c
    | cons e es =>
      obtain ⟨hr, hrs⟩ := List.forall_mem_cons.mp hrs
      have hcalm := crud.calm_settle e hc hr
      refine ((keeps_settle e hc hr).mono fun s hs => ?_).trans
        ((ih es hcalm.sound fun r' hr' => (hrs r' hr').mono hcalm).mono fun s hs => ?_)
      · exact ⟨(r, e), List.mem_cons_self, hs⟩
      · obtain ⟨x, hx, hs⟩ := hs
        exact ⟨x, List.mem_cons_of_mem _ hx, hs⟩

/-- The end of a creation. Only when there is one entity for each input do keys of inputs and keys
of entities belong together. -/
theorem keeps_finishCreate {rs : List Reserved} (es : List α) (hc : c.Sound)
    (hrs : ∀ r ∈ rs, crud.Holds c r) :
    crud.Keeps (fun s => es.length = rs.length ∧ crud.Moves rs es s) c
      (crud.finishCreate rs es c).2 := by
  by_cases hlength : es.length = rs.length
  · rw [finishCreate_of_length crud hlength]
    exact (keeps_settleAll es hc hrs).mono fun s hs => ⟨hlength, hs⟩
  · unfold finishCreate
    rw [if_neg hlength]
    split_ifs
    · exact Keeps.refl crud _ c
    · exact (keeps_mergeAll es hc).mono fun _ => False.elim

/-! ### Reading -/

section Read

variable {key : String} {p : Handle}

theorem keeps_sight (found : List α) (seen : Sighting) (hc : c.Sound)
    (hp : c.Admits crud.type (some p)) :
    crud.Keeps (fun _ => False) c (crud.sight key p found seen c).2 := by
  induction found generalizing seen c with
  | nil => exact Keeps.refl crud _ c
  | cons e es ih =>
    unfold sight
    simp only
    split_ifs
    · have hcalm := calm_mergeInto hc crud.side key hp e
      exact (keeps_mergeInto hc key hp e).trans (ih _ hcalm.sound (hp.mono hcalm))
    · have hnone := admits_none (c := c) crud.type
      have hcalm := calm_mergeInto hc crud.side (crud.keyOf e) hnone e
      exact (keeps_mergeInto hc _ hnone e).trans (ih _ hcalm.sound (hp.mono hcalm))

theorem keeps_finishRead (found : List α) (hc : c.Sound) (hp : c.Admits crud.type (some p)) :
    crud.Keeps (· = Memo.slot crud.side crud.type key) c (crud.finishRead key p found c).2 := by
  have hsight : crud.Keeps (· = Memo.slot crud.side crud.type key) c
      (crud.sight key p found ⟨none, none⟩ c).2 :=
    (keeps_sight found ⟨none, none⟩ hc hp).mono fun _ => False.elim
  unfold finishRead
  simp only
  split
  · exact hsight
  · exact hsight.trans (keeps_evictRecord crud key (hp p rfl).1 _)

/-- An entity of the key is sighted if one was found. -/
theorem hit_sight_isSome (found : List α) (seen : Sighting) (c : Cache α) :
    (crud.sight key p found seen c).1.hit.isSome ↔
      seen.hit.isSome ∨ ∃ e ∈ found, crud.keyOf e = key := by
  induction found generalizing seen c with
  | nil => simp [sight]
  | cons e es ih =>
    unfold sight
    simp only
    split_ifs with hkey
    · simp [ih, hkey]
    · simp [ih, hkey]

/-- A read that finds an entity of its key, and whose placeholder is still in the slot, answers
with the placeholder. -/
theorem fst_finishRead_of_mem {found : List α} (hc : c.Sound)
    (hs : c.recordAt? (Memo.slot crud.side crud.type key) = some p)
    (hp : c.Admits crud.type (some p)) (hfound : ∃ e ∈ found, crud.keyOf e = key) :
    (crud.finishRead key p found c).1 = some p := by
  have hsome : (crud.sight key p found ⟨none, none⟩ c).1.hit.isSome :=
    (hit_sight_isSome found ⟨none, none⟩ c).mpr (Or.inr hfound)
  obtain ⟨h, hhit⟩ := Option.isSome_iff_exists.mp hsome
  -- what was sighted is in the slot, and the slot has kept its record
  have hslot := (((sighted_nothing crud key c).sight found hc hp).hit h hhit).1
  have hkept : (crud.sight key p found ⟨none, none⟩ c).2.recordAt?
      (Memo.slot crud.side crud.type key) = some p :=
    (keeps_sight found ⟨none, none⟩ hc hp).slot (fun _ _ => (hp p rfl).1) id hs
  rw [hkept] at hslot
  unfold finishRead
  simp only [hhit, ← hslot]

end Read

/-! ### Where entities are stored -/

theorem length_mergeAll (es : List α) (c : Cache α) :
    (crud.mergeAll es c).1.length = es.length := by
  induction es generalizing c with
  | nil => rfl
  | cons e es ih => exact congrArg (· + 1) (ih _)

theorem length_settleAll {rs : List Reserved} {es : List α} (hlength : es.length = rs.length)
    (c : Cache α) : (crud.settleAll rs es c).1.length = es.length := by
  induction rs generalizing es c with
  | nil =>
    obtain rfl := List.eq_nil_of_length_eq_zero hlength
    rfl
  | cons r rs ih =>
    cases es with
    | nil => rfl
    | cons e es => exact congrArg (· + 1) (ih (Nat.succ.inj hlength) _)

/-- An entity that is stored, with the record that it is stored in and the cache right after. -/
structure Stored (α : Type) where
  entity : α
  record : Handle
  cache : Cache α

section StoreEach

variable {β : Type} {entity : β → α} {step : β → Cache α → Handle × Cache α}

/-- Stores the entities of some items, one after the other. -/
def storeEach (entity : β → α) (step : β → Cache α → Handle × Cache α) :
    List β → Cache α → List (Stored α)
  | [], _ => []
  | x :: xs, c => ⟨entity x, (step x c).1, (step x c).2⟩ :: storeEach entity step xs (step x c).2

theorem map_entity_storeEach (xs : List β) (c : Cache α) :
    (storeEach entity step xs c).map Stored.entity = xs.map entity := by
  induction xs generalizing c with
  | nil => rfl
  | cons x xs ih => exact congrArg (entity x :: ·) (ih _)

/-- The cache after the last item. -/
theorem getLast?_storeEach (xs : List β) (c : Cache α) :
    ((storeEach entity step xs c).getLast?.map Stored.cache).getD c =
      xs.foldl (fun c x => (step x c).2) c := by
  induction xs generalizing c with
  | nil => rfl
  | cons x xs ih =>
    rw [List.foldl_cons, ← ih, storeEach, List.getLast?_cons]
    cases (storeEach entity step xs (step x c).2).getLast? <;> rfl

/-- What holds of every step holds of every entity that is stored. -/
theorem forall_mem_storeEach {P : Cache α → Prop} {Q : Stored α → Prop} {xs : List β}
    (hstep : ∀ x ∈ xs, ∀ c, P c →
      P (step x c).2 ∧ Q ⟨entity x, (step x c).1, (step x c).2⟩) (hc : P c) :
    ∀ stored ∈ storeEach entity step xs c, Q stored := by
  induction xs generalizing c with
  | nil => exact fun stored hstored => absurd hstored List.not_mem_nil
  | cons x xs ih =>
    obtain ⟨hfirst, hrest⟩ := List.forall_mem_cons.mp hstep
    exact List.forall_mem_cons.mpr ⟨(hfirst c hc).2, ih hrest (hfirst c hc).1⟩

end StoreEach

/-- Merges an entity under its own key, where a vacant slot takes the candidate for the entity. -/
def takeIn (crud : Crud α) (candidate : α → Option Handle) (e : α) (c : Cache α) :
    Handle × Cache α :=
  c.mergeInto crud.side crud.type (crud.keyOf e) (candidate e) e

/-- What the read of a key has for a vacant slot: its placeholder, for entities of the key. -/
def placeholderFor (crud : Crud α) (key : String) (p : Handle) (e : α) : Option Handle :=
  if crud.keyOf e = key then some p else none

/-- Merging entities stores each of them in the record that is answered for it. -/
theorem mergeAll_eq (es : List α) (c : Cache α) :
    crud.mergeAll es c =
      ((storeEach id (crud.takeIn fun _ => none) es c).map Stored.record,
        es.foldl (fun c e => (crud.takeIn (fun _ => none) e c).2) c) := by
  induction es generalizing c with
  | nil => rfl
  | cons e es ih =>
    unfold mergeAll
    simp only [ih]
    rfl

/-- Merging ends with the cache after the last entity. -/
theorem snd_mergeAll (crud : Crud α) (es : List α) (c : Cache α) :
    (crud.mergeAll es c).2 =
      ((storeEach id (crud.takeIn fun _ => none) es c).getLast?.map Stored.cache).getD c := by
  rw [mergeAll_eq, getLast?_storeEach]

/-- Settling entities stores each of them in the record that is answered for it. -/
theorem settleAll_eq (rs : List Reserved) (es : List α) (c : Cache α) :
    crud.settleAll rs es c =
      ((storeEach Prod.snd (fun x => crud.settle x.1 x.2) (rs.zip es) c).map Stored.record,
        (rs.zip es).foldl (fun c x => (crud.settle x.1 x.2 c).2) c) := by
  induction rs generalizing es c with
  | nil => cases es <;> rfl
  | cons r rs ih =>
    cases es with
    | nil => rfl
    | cons e es =>
      unfold settleAll
      simp only [ih]
      rfl

/-- Sighting the entities that were found does nothing else to the cache than to store them. -/
theorem snd_sight_eq (key : String) (p : Handle) (found : List α) (seen : Sighting)
    (c : Cache α) :
    (crud.sight key p found seen c).2 =
      found.foldl (fun c e => (crud.takeIn (crud.placeholderFor key p) e c).2) c := by
  induction found generalizing seen c with
  | nil => rfl
  | cons e es ih =>
    unfold sight
    simp only [List.foldl_cons, takeIn, placeholderFor]
    split_ifs with hkey
    · subst hkey
      exact ih _ _
    · exact ih _ _

/-- A read leaves in every record what it stored there. -/
theorem entity?_snd_finishRead (key : String) (p : Handle) (found : List α) (c : Cache α)
    (k : Handle) : (crud.finishRead key p found c).2.entity? k =
      (found.foldl (fun c e => (crud.takeIn (crud.placeholderFor key p) e c).2) c).entity? k := by
  rw [← snd_sight_eq key p found ⟨none, none⟩ c]
  unfold finishRead
  simp only
  -- the placeholder may leave its slot, but no record changes
  split <;> rfl

theorem admits_placeholderFor {key : String} {p : Handle} (hp : c.Admits crud.type (some p))
    (e : α) : c.Admits crud.type (crud.placeholderFor key p e) := by
  unfold placeholderFor
  split_ifs
  · exact hp
  · exact admits_none crud.type

section Taken

variable {s : Slot} {h : Handle}

/-- An entity is merged into the record of a key that is taken. -/
theorem stored_mergeInto {key : String} {candidate : Option Handle} (hc : c.Sound)
    (hcand : c.Admits crud.type candidate) (hknows : crud.Knows s h) (hs : c.recordAt? s = some h)
    (hslot : s = Memo.slot crud.side crud.type key) (e : α) :
    (c.mergeInto crud.side crud.type key candidate e).1 = h ∧
      (c.mergeInto crud.side crud.type key candidate e).2.entity? h = some e := by
  subst hslot
  have hrecord : (c.mergeInto crud.side crud.type key candidate e).1 = h := by
    rw [fst_mergeInto, hknows.find? hs, Option.getD_some]
  have hmerged := entity?_merged hc crud.side key hcand e
  rw [hrecord] at hmerged
  exact ⟨hrecord, hmerged⟩

/-- An entity is settled in the record of its key if the key is taken. -/
theorem stored_settle {r : Reserved} {e : α} (hc : c.Sound) (hr : crud.Holds c r)
    (hknows : crud.Knows s h) (hs : c.recordAt? s = some h)
    (hslot : s = Memo.slot crud.side crud.type (crud.keyOf e)) :
    (crud.settle r e c).1 = h ∧ (crud.settle r e c).2.entity? h = some e := by
  subst hslot
  have hrecord : (crud.settle r e c).1 = h := by
    rw [fst_settle, hknows.find? hs, Option.getD_some]
  exact ⟨hrecord, (entity?_settle crud e hc hr h).trans (if_pos (.inl (hrecord ▸ rfl)))⟩

/-- Entities of a key that is taken are merged into the record of the key, whatever the candidates
are. -/
theorem stored_takeIn {candidate : α → Option Handle} (es : List α) (hc : c.Sound)
    (hcand : ∀ e, c.Admits crud.type (candidate e)) (hknows : crud.Knows s h)
    (hs : c.recordAt? s = some h) :
    ∀ stored ∈ storeEach id (crud.takeIn candidate) es c,
      s = Memo.slot crud.side crud.type (crud.keyOf stored.entity) →
        stored.record = h ∧ stored.cache.entity? h = some stored.entity := by
  refine forall_mem_storeEach
    (P := fun c => c.Sound ∧ (∀ e, c.Admits crud.type (candidate e)) ∧ c.recordAt? s = some h)
    (fun e _ c ⟨hc, hcand, hs⟩ => ?_) ⟨hc, hcand, hs⟩
  have hcalm := calm_mergeInto hc crud.side (crud.keyOf e) (hcand e) e
  have hkept := (keeps_mergeInto hc (crud.keyOf e) (hcand e) e).slot hknows id hs
  exact ⟨⟨hcalm.sound, fun e' => (hcand e').mono hcalm, hkept⟩,
    fun hslot => stored_mergeInto hc (hcand e) hknows hs hslot e⟩

/-- The created entities of a slot's key are settled in the record of the slot, as long as the
creation does not move that record. -/
theorem stored_settleAll {rs : List Reserved} {es : List α} (hc : c.Sound)
    (hrs : ∀ r ∈ rs, crud.Holds c r) (hknows : crud.Knows s h) (hmoves : ¬ crud.Moves rs es s)
    (hs : c.recordAt? s = some h) :
    ∀ stored ∈ storeEach Prod.snd (fun x => crud.settle x.1 x.2) (rs.zip es) c,
      s = Memo.slot crud.side crud.type (crud.keyOf stored.entity) →
        stored.record = h ∧ stored.cache.entity? h = some stored.entity := by
  refine forall_mem_storeEach
    (P := fun c => c.Sound ∧ (∀ r ∈ rs, crud.Holds c r) ∧ c.recordAt? s = some h)
    (fun x hx c ⟨hc, hrs, hs⟩ => ?_) ⟨hc, hrs, hs⟩
  have hr := hrs x.1 (List.of_mem_zip hx).1
  have hcalm := crud.calm_settle x.2 hc hr
  have hkept := (keeps_settle x.2 hc hr).slot hknows (fun hmoved => hmoves ⟨x, hx, hmoved⟩) hs
  exact ⟨⟨hcalm.sound, fun r hr => (hrs r hr).mono hcalm, hkept⟩,
    stored_settle hc hr hknows hs⟩

end Taken

end Crud

end Reconcile
