import Reconcile.Proofs.Cache.Kept
import Reconcile.Proofs.Crud.Run
import Reconcile.Proofs.Traffic.Identity

/-!
# A record once known stays known

When a record is in the slot of a key and no call under way has merely reserved the slot, the record
stays there (`Traffic.record_stable`): every read of the key answers with it and asks no backend,
and every entity of the key that another call takes in is stored in it (`Call.stores`). Neither the
failure of another call, nor the placeholder of another read, nor the creation of other entities
takes the record out of its slot or puts another one there.

What a call may vacate is of two sorts. It takes out what it put into a slot for the time that its
backend is asked (`Call.Reserves`), and a call that begins later has put nothing into a slot that
was taken. And it vacates slots because its backend succeeded (`Call.Releases`): a deletion those of
its keys, and a creation those of the inputs whose entities got other keys. Apart from flushing,
this is all: `Call.keeps_finish`.

Types are told apart by their kinds throughout (`Traffic.Typed`), since a type takes over the slots
of another type of its kind.
-/

namespace Reconcile

open Cache

variable {α : Type}

/-! ### Calls -/

/-- A call that begins leaves every taken slot as it is. -/
theorem Request.keeps_begin {c : Cache α} (hc : c.Sound) (crud : Crud α) (request : Request α) :
    crud.Keeps (fun _ => False) c (request.begin crud c).2 := by
  cases request with
  | create es => exact Crud.keeps_reserveAll es hc
  | read key =>
    cases hfound : c.memo.find? crud.side crud.type key with
    | some h =>
      rw [begin_read_of_some hfound]
      exact Crud.Keeps.refl crud _ c
    | none =>
      rw [begin_read_of_none hfound]
      exact Crud.keeps_reserve crud key c
  | readAll => exact Crud.Keeps.refl crud _ c
  | update es => exact Crud.Keeps.refl crud _ c
  | delete es => exact Crud.Keeps.refl crud _ c

/-- What a call is when it begins. A read begins only where nothing is found. -/
theorem Request.begin_cases {crud : Crud α} {request : Request α} {c : Cache α} {call : Call α}
    (hcall : call ∈ (request.begin crud c).1) :
    (∃ es, call = .creating crud (crud.reserveAll es c).1) ∨
      (∃ key, c.memo.find? crud.side crud.type key = none ∧
        call = .reading crud key (c.nextRecord crud.type)) ∨
      call = .listing crud ∨ call = .updating crud ∨ ∃ keys, call = .deleting crud keys := by
  cases request with
  | create es =>
    cases hcall
    exact Or.inl ⟨es, rfl⟩
  | read key =>
    cases hfound : c.memo.find? crud.side crud.type key with
    | some h =>
      rw [begin_read_of_some hfound] at hcall
      cases hcall
    | none =>
      rw [begin_read_of_none hfound] at hcall
      cases hcall
      exact Or.inr (Or.inl ⟨key, hfound, rfl⟩)
  | readAll =>
    cases hcall
    exact Or.inr (Or.inr (Or.inl rfl))
  | update es =>
    cases hcall
    exact Or.inr (Or.inr (Or.inr (Or.inl rfl)))
  | delete es =>
    cases hcall
    exact Or.inr (Or.inr (Or.inr (Or.inr ⟨_, rfl⟩)))

/-- A call that begins is one of the side and type that were asked for. -/
theorem Request.crud_begin {crud : Crud α} {request : Request α} {c : Cache α} {call : Call α}
    (hcall : call ∈ (request.begin crud c).1) : call.crud = crud := by
  obtain ⟨es, rfl⟩ | ⟨key, -, rfl⟩ | rfl | rfl | ⟨keys, rfl⟩ := begin_cases hcall <;> rfl

namespace Call

/-- The call has put a record into the slot for the time that its backend is asked. -/
def Reserves (s : Slot) : Call α → Prop
  | creating crud reserved => ∃ r ∈ reserved, r.fresh ∧ s = Memo.slot crud.side crud.type r.key
  | reading crud key _ => s = Memo.slot crud.side crud.type key
  | _ => False

/-- With this answer the call has deleted the entity of the slot's key, or has created an input of
the key as an entity of another key. -/
def Releases (s : Slot) : Call α → Answer α → Prop
  | creating crud reserved, .ok created =>
    created.length = reserved.length ∧ crud.Moves reserved created s
  | deleting crud keys, .ok _ => ∃ key ∈ keys, s = Memo.slot crud.side crud.type key
  | _, _ => False

/-- A call reserves no slot in which something is found when it begins. -/
theorem not_reserves_begin {crud : Crud α} {request : Request α} {c : Cache α} {key : String}
    {h : Handle} (hfound : c.memo.find? crud.side crud.type key = some h) {call : Call α}
    (hcall : call ∈ (request.begin crud c).1) :
    ¬ call.Reserves (Memo.slot crud.side crud.type key) := by
  obtain ⟨es, rfl⟩ | ⟨key', hvacant, rfl⟩ | rfl | rfl | ⟨keys, rfl⟩ := Request.begin_cases hcall
  · rintro ⟨r, hr, hfresh, hslot⟩
    have hvacant := crud.find?_of_fresh es c r hr hfresh
    rw [← Memo.slot_inj.mp hslot, hfound] at hvacant
    cases hvacant
  · intro hslot
    rw [← Memo.slot_inj.mp hslot, hfound] at hvacant
    cases hvacant
  · exact id
  · exact id
  · exact id

/-- The slots that a call reserves are of its own side and type. -/
theorem Reserves.exists_key {call : Call α} {s : Slot} (h : call.Reserves s) :
    ∃ key, s = Memo.slot call.crud.side call.crud.type key := by
  cases call with
  | creating crud reserved =>
    obtain ⟨r, -, -, hslot⟩ := h
    exact ⟨r.key, hslot⟩
  | reading crud key p => exact ⟨key, h⟩
  | listing crud => exact h.elim
  | updating crud => exact h.elim
  | deleting crud keys => exact h.elim

/-- The slots that a call releases are of its own side and type. -/
theorem Releases.exists_key {call : Call α} {answer : Answer α} {s : Slot}
    (h : call.Releases s answer) : ∃ key, s = Memo.slot call.crud.side call.crud.type key := by
  cases answer with
  | error cause => cases call <;> exact h.elim
  | ok es =>
    cases call with
    | creating crud reserved =>
      obtain ⟨-, x, -, -, hslot⟩ := h
      exact ⟨x.1.key, hslot⟩
    | reading crud key p => exact h.elim
    | listing crud => exact h.elim
    | updating crud => exact h.elim
    | deleting crud keys =>
      obtain ⟨key, -, hslot⟩ := h
      exact ⟨key, hslot⟩

/-- A call that ends vacates nothing but what it reserves and what it releases. -/
theorem keeps_finish {c : Cache α} (hc : c.Sound) {call : Call α} (hcall : call.Backed c)
    (answer : Answer α) :
    call.crud.Keeps (fun s => call.Reserves s ∨ call.Releases s answer) c
      (call.finish answer c) := by
  cases call with
  | creating crud reserved =>
    cases answer with
    | error _ => exact (Crud.keeps_rollBack (fun r hr => (hcall r hr).1) c).mono fun _ => Or.inl
    | ok created => exact (Crud.keeps_finishCreate created hc hcall).mono fun _ => Or.inr
  | reading crud key p =>
    cases answer with
    | error _ =>
      exact (Crud.keeps_evictRecord crud key (hcall p rfl).1 c).mono fun _ => Or.inl
    | ok found => exact (Crud.keeps_finishRead found hc hcall).mono fun _ => Or.inl
  | listing crud =>
    cases answer with
    | error _ => exact Crud.Keeps.refl crud _ c
    | ok found => exact (Crud.keeps_mergeAll found hc).mono fun _ => False.elim
  | updating crud =>
    cases answer with
    | error _ => exact Crud.Keeps.refl crud _ c
    | ok updated => exact (Crud.keeps_mergeAll updated hc).mono fun _ => False.elim
  | deleting crud keys =>
    cases answer with
    | error _ => exact Crud.Keeps.refl crud _ c
    | ok _ => exact (Crud.keeps_evictAll keys c).mono fun _ => Or.inr

/-- The entities that a call stores when it ends, one after the other: each with the record that it
is stored in, and with the cache right after. -/
def stores : Call α → Answer α → Cache α → List (Crud.Stored α)
  | creating crud reserved, .ok created, c =>
    if created.length = reserved.length then
      Crud.storeEach Prod.snd (fun x => crud.settle x.1 x.2) (reserved.zip created) c
    else Crud.storeEach id (crud.takeIn fun _ => none) created c
  | reading crud key p, .ok found, c =>
    Crud.storeEach id (crud.takeIn (crud.placeholderFor key p)) found c
  | listing crud, .ok found, c => Crud.storeEach id (crud.takeIn fun _ => none) found c
  | updating crud, .ok updated, c => Crud.storeEach id (crud.takeIn fun _ => none) updated c
  | _, _, _ => []

/-- A call stores every entity that its backend answers with, unless it deletes. -/
theorem map_entity_stores {call : Call α} (hcall : ∀ crud keys, call ≠ deleting crud keys)
    (es : List α) (c : Cache α) : (call.stores (.ok es) c).map Crud.Stored.entity = es := by
  cases call with
  | creating crud reserved =>
    simp only [stores]
    split_ifs with hlength
    · rw [Crud.map_entity_storeEach, List.map_snd_zip hlength.le]
    · rw [Crud.map_entity_storeEach, List.map_id]
  | reading crud key p => exact (Crud.map_entity_storeEach es c).trans (List.map_id es)
  | listing crud => exact (Crud.map_entity_storeEach es c).trans (List.map_id es)
  | updating crud => exact (Crud.map_entity_storeEach es c).trans (List.map_id es)
  | deleting crud keys => exact absurd rfl (hcall crud keys)

/-- The records that a creation stores entities in are those that it answers with. -/
theorem map_record_stores_creating (crud : Crud α) (reserved : List Crud.Reserved) {es : List α}
    (hes : es ≠ []) (c : Cache α) :
    ((creating crud reserved).stores (.ok es) c).map Crud.Stored.record =
      (crud.finishCreate reserved es c).1 := by
  simp only [stores]
  split_ifs with hlength
  · rw [Crud.finishCreate_of_length crud hlength, Crud.settleAll_eq]
  · rw [Crud.finishCreate_of_ne crud hes hlength, Crud.mergeAll_eq]

/-- The records that a listing or an update stores entities in are those that it answers with. -/
theorem map_record_stores_merging (crud : Crud α) (es : List α) (c : Cache α) :
    ∀ call ∈ [listing crud, updating crud],
      (call.stores (.ok es) c).map Crud.Stored.record = (crud.mergeAll es c).1 := by
  rw [Crud.mergeAll_eq]
  exact List.forall_mem_cons.mpr ⟨rfl, List.forall_mem_singleton.mpr rfl⟩

/-- When a call has ended, every record holds what it held after the last entity was stored. -/
theorem entity?_finish (call : Call α) (answer : Answer α) (c : Cache α) (k : Handle) :
    (call.finish answer c).entity? k =
      (((call.stores answer c).getLast?.map Crud.Stored.cache).getD c).entity? k := by
  cases answer with
  | error cause =>
    cases call with
    | creating crud reserved => exact crud.entity?_rollBack reserved c k
    | reading crud key p => rfl
    | listing crud => rfl
    | updating crud => rfl
    | deleting crud keys => rfl
  | ok es =>
    cases call with
    | creating crud reserved =>
      simp only [finish, stores]
      split_ifs with hlength
      · rw [Crud.finishCreate_of_length crud hlength, Crud.settleAll_eq, Crud.getLast?_storeEach]
      · by_cases hes : es = []
        · subst hes
          rfl
        · rw [Crud.finishCreate_of_ne crud hes hlength, Crud.snd_mergeAll]
    | reading crud key p =>
      simp only [finish, stores]
      rw [Crud.entity?_snd_finishRead, Crud.getLast?_storeEach]
    | listing crud => exact congrArg (entity? · k) (crud.snd_mergeAll es c)
    | updating crud => exact congrArg (entity? · k) (crud.snd_mergeAll es c)
    | deleting crud keys => exact crud.entity?_evictAll keys c k

/-- An entity of a key that is taken is stored in the record of the key, and is in it right after,
unless the call releases the slot. -/
theorem stored {c : Cache α} (hc : c.Sound) {call : Call α} (hcall : call.Backed c)
    {answer : Answer α} {s : Slot} {h : Handle} (hknows : call.crud.Knows s h)
    (hs : c.recordAt? s = some h) (hreleases : ¬ call.Releases s answer) :
    ∀ x ∈ call.stores answer c,
      s = Memo.slot call.crud.side call.crud.type (call.crud.keyOf x.entity) →
        x.record = h ∧ x.cache.entity? h = some x.entity := by
  cases answer with
  | error cause => cases call <;> exact fun x hx => absurd hx List.not_mem_nil
  | ok es =>
    cases call with
    | creating crud reserved =>
      simp only [stores]
      split_ifs with hlength
      · exact Crud.stored_settleAll hc hcall hknows (fun hmoved => hreleases ⟨hlength, hmoved⟩) hs
      · exact Crud.stored_takeIn es hc (fun _ => admits_none crud.type) hknows hs
    | reading crud key p =>
      exact Crud.stored_takeIn es hc (Crud.admits_placeholderFor hcall) hknows hs
    | listing crud => exact Crud.stored_takeIn es hc (fun _ => admits_none crud.type) hknows hs
    | updating crud => exact Crud.stored_takeIn es hc (fun _ => admits_none crud.type) hknows hs
    | deleting crud keys => exact fun x hx => absurd hx List.not_mem_nil

end Call

/-- The event makes calls of the given types only. -/
def Event.Uses (types : Set EntityType) : Event α → Prop
  | .begin crud _ => crud.type ∈ types
  | _ => True

namespace Traffic

variable {types : Set EntityType}

/-! ### Types -/

/-- All records in slots, and all calls under way, are of the given types. -/
structure Typed (types : Set EntityType) (t : Traffic α) : Prop where
  slots : ∀ {s h}, t.cache.recordAt? s = some h → h.type ∈ types
  calls : ∀ call ∈ t.calls, call.crud.type ∈ types

theorem typed_start (types : Set EntityType) (records : Records α) :
    (start records).Typed types :=
  ⟨fun hs => by simp [recordAt?, start, Memo.empty] at hs,
    fun _ hcall => absurd hcall List.not_mem_nil⟩

/-- A call puts records of its own type into slots. -/
theorem Typed.of_keeps {crud : Crud α} (hcrud : crud.type ∈ types) {t : Traffic α}
    (ht : t.Typed types) {loose : Slot → Prop} {c : Cache α} (hkeeps : crud.Keeps loose t.cache c)
    {s : Slot} {h : Handle} (hs : c.recordAt? s = some h) : h.type ∈ types := by
  rcases hkeeps.entered hs with hs | ⟨htype, -⟩
  · exact ht.slots hs
  · exact htype ▸ hcrud

theorem Typed.step {t : Traffic α} (hsound : t.Sound) (ht : t.Typed types) {event : Event α}
    (huses : event.Uses types) : (t.step event).Typed types := by
  cases event with
  | begin crud request =>
    refine ⟨ht.of_keeps huses (request.keeps_begin hsound.cache crud), fun call hcall => ?_⟩
    rcases List.mem_append.mp hcall with hcall | hcall
    · rw [Request.crud_begin (Option.mem_toList.mp hcall)]
      exact huses
    · exact ht.calls call hcall
  | finish n answer =>
    cases hn : t.calls[n]? with
    | none => rwa [step_finish_of_none hn]
    | some call =>
      rw [step_finish_of_some hn]
      have hmem := List.mem_of_getElem? hn
      exact ⟨ht.of_keeps (ht.calls call hmem)
        (call.keeps_finish hsound.cache (hsound.backed call hmem) answer),
        fun other hother => ht.calls other (List.mem_of_mem_eraseIdx hother)⟩
  | flush side =>
    refine ⟨fun hs => ?_, ht.calls⟩
    change (t.cache.flush side).recordAt? _ = some _ at hs
    rw [recordAt?_flush] at hs
    split_ifs at hs
    exact ht.slots hs
  | modify h f => exact ⟨ht.slots, ht.calls⟩

theorem Typed.run {t : Traffic α} (hsound : t.Sound) (ht : t.Typed types) {events : List (Event α)}
    (huses : t.Legal (fun _ event => event.Uses types) events) : (t.run events).Typed types :=
  (legal_induction (Q := fun t => t.Sound ∧ t.Typed types)
    (fun _ event h huses => ⟨h.1.step event, h.2.step h.1 huses⟩) ⟨hsound, ht⟩ huses).2

/-! ### Stability -/

/-- With this event the slot is vacated on purpose: its side is flushed, or a call ends that
releases it. -/
def Releases (s : Slot) (t : Traffic α) : Event α → Prop
  | .flush side => s.side = side
  | .finish n answer => ∃ call, t.calls[n]? = some call ∧ call.Releases s answer
  | _ => False

/-- The record is in the slot, and stays there whatever calls under way fail. -/
structure Settled (s : Slot) (h : Handle) (t : Traffic α) : Prop where
  slot : t.cache.recordAt? s = some h
  unreserved : ∀ call ∈ t.calls, ¬ call.Reserves s

theorem Settled.step (hkinds : types.InjOn EntityType.kind) {t : Traffic α} (hsound : t.Sound)
    (htyped : t.Typed types) {s : Slot} {h : Handle} (ht : t.Settled s h) {event : Event α}
    (huses : event.Uses types) (hreleases : ¬ t.Releases s event) :
    (t.step event).Settled s h := by
  have hknows : ∀ {crud : Crud α}, crud.type ∈ types → crud.Knows s h := fun hcrud =>
    Crud.owns_of_injOn hkinds hsound.cache (fun _ _ hs => htyped.slots hs) hcrud ht.slot
  cases event with
  | begin crud request =>
    have hkept := (request.keeps_begin hsound.cache crud).slot (hknows huses) id ht.slot
    refine ⟨hkept, fun call hcall => ?_⟩
    rcases List.mem_append.mp hcall with hcall | hcall
    · intro hreserves
      have hcall := Option.mem_toList.mp hcall
      obtain ⟨key, hslot⟩ := hreserves.exists_key
      rw [Request.crud_begin hcall] at hslot
      subst hslot
      exact Call.not_reserves_begin ((hknows huses).find? ht.slot) hcall hreserves
    · exact ht.unreserved call hcall
  | finish n answer =>
    cases hn : t.calls[n]? with
    | none => rwa [step_finish_of_none hn]
    | some call =>
      rw [step_finish_of_some hn]
      have hmem := List.mem_of_getElem? hn
      refine ⟨(call.keeps_finish hsound.cache (hsound.backed call hmem) answer).slot
        (hknows (htyped.calls call hmem)) ?_ ht.slot,
        fun other hother => ht.unreserved other (List.mem_of_mem_eraseIdx hother)⟩
      rintro (hreserves | hcall)
      · exact ht.unreserved call hmem hreserves
      · exact hreleases ⟨call, hn, hcall⟩
  | flush side => exact ⟨(t.cache.recordAt?_flush side s).trans ((if_neg hreleases).trans ht.slot),
      ht.unreserved⟩
  | modify k f => exact ⟨ht.slot, ht.unreserved⟩

/-- **A record once known stays known.** A record that is in the slot of a key, when no call under
way has only reserved the slot, is the answer to every read of the key from then on, and no backend
is asked for it; and every entity of the key that a call takes in is stored in this record, which
holds it right after. When the call has ended, the record holds what it held after the last entity.

So it is until the side is flushed, an entity of the key is deleted, or an input of the key is
created as an entity of another key. All other calls, on either side and of any types that are told
apart by their kinds, may begin, fail and succeed meanwhile in any order and inside each other. -/
theorem record_stable {types : Set EntityType} (hkinds : types.InjOn EntityType.kind)
    (records : Records α) {events later : List (Event α)}
    (hevents : (start records).Legal (fun _ event => event.Uses types) events)
    {crud : Crud α} (hcrud : crud.type ∈ types) {key : String} {h : Handle}
    (hknown : ((start records).run events).cache.recordAt? (Memo.slot crud.side crud.type key) =
      some h)
    (hended : ∀ call ∈ ((start records).run events).calls,
      ¬ call.Reserves (Memo.slot crud.side crud.type key))
    (hlater : ((start records).run events).Legal (fun t event =>
      event.Uses types ∧ ¬ t.Releases (Memo.slot crud.side crud.type key) event) later) :
    let t := ((start records).run events).run later
    (∀ (n : Type → Type) [Monad n] [LawfulMonad n] (backend : Backend (StateT (Cache α) n) α),
      (crud.read backend key).run t.cache = pure (.ok (some h), t.cache)) ∧
    ∀ call ∈ t.calls, ∀ answer, ¬ call.Releases (Memo.slot crud.side crud.type key) answer →
      (∀ x ∈ call.stores answer t.cache,
        Memo.slot call.crud.side call.crud.type (call.crud.keyOf x.entity) =
          Memo.slot crud.side crud.type key → x.record = h ∧ x.cache.entity? h = some x.entity) ∧
      (call.finish answer t.cache).entity? h =
        (((call.stores answer t.cache).getLast?.map Crud.Stored.cache).getD t.cache).entity? h := by
  intro t
  have hstart : ((start records).run events).Typed types :=
    (typed_start types records).run (sound_start records) hevents
  obtain ⟨hsound, htyped, hsettled⟩ : t.Sound ∧ t.Typed types ∧
      t.Settled (Memo.slot crud.side crud.type key) h :=
    legal_induction (Q := fun t => t.Sound ∧ t.Typed types ∧
        t.Settled (Memo.slot crud.side crud.type key) h)
      (fun _ event ⟨hsound, htyped, hsettled⟩ ⟨huses, hreleases⟩ => ⟨hsound.step event,
        htyped.step hsound huses, hsettled.step hkinds hsound htyped huses hreleases⟩)
      ⟨sound_run records events, hstart, hknown, hended⟩ hlater
  have howns : ∀ {crud : Crud α}, crud.type ∈ types → crud.Owns t.cache := fun hcrud =>
    Crud.owns_of_injOn hkinds hsound.cache (fun _ _ hs => htyped.slots hs) hcrud
  refine ⟨fun n _ _ backend => ?_, fun call hcall answer hreleases => ⟨fun x hx hslot => ?_, ?_⟩⟩
  · rw [crud.run_read, crud.beginRead_of_some ((howns hcrud hsettled.slot).find? hsettled.slot)]
  · exact call.stored hsound.cache (hsound.backed call hcall)
      (howns (htyped.calls call hcall) hsettled.slot) hsettled.slot hreleases x hx hslot.symm
  · exact call.entity?_finish answer t.cache h

/-- An entity is created. -/
def firstCreation : List (Event (String × Nat)) :=
  let crud : Crud (String × Nat) := ⟨⟨"Queue", "Queue"⟩, .cloud, Prod.fst⟩
  [.begin crud (.create [("a", 1)]), .finish 0 (.ok [])]

/-- Its key is among the inputs of a creation that fails, after a read inside it has failed. Then
another key is deleted, and a listing begins. -/
def laterCalls : List (Event (String × Nat)) :=
  let crud : Crud (String × Nat) := ⟨⟨"Queue", "Queue"⟩, .cloud, Prod.fst⟩
  [.begin crud (.create [("b", 2), ("a", 3)]), .begin crud (.read "c"), .finish 0 (.error "lost"),
    .finish 0 (.error "refused"), .begin crud (.delete [("b", 2)]), .finish 0 (.ok []),
    .begin crud .readAll]

/-- The record of the first creation is still the answer under its key, and holds what the listing
finds there, as soon as it is stored and when the listing has ended. -/
theorem record_stable_later :
    let crud : Crud (String × Nat) := ⟨⟨"Queue", "Queue"⟩, .cloud, Prod.fst⟩
    let h : Handle := ⟨⟨"Queue", "Queue"⟩, 0⟩
    let t := ((start Records.empty).run firstCreation).run laterCalls
    (∀ backend : Backend (StateT (Cache (String × Nat)) Id) (String × Nat),
      (crud.read backend "a").run t.cache = pure (.ok (some h), t.cache)) ∧
    (∀ x ∈ (Call.listing crud).stores (.ok [("b", 4), ("a", 5)]) t.cache,
      x.entity.1 = "a" → x.record = h ∧ x.cache.entity? h = some x.entity) ∧
    ((Call.listing crud).finish (.ok [("b", 4), ("a", 5)]) t.cache).entity? h = some ("a", 5) := by
  intro crud h t
  have hkinds : ({crud.type} : Set EntityType).InjOn EntityType.kind := Set.injOn_singleton _ _
  have hended : ∀ call ∈ ((start Records.empty).run firstCreation).calls,
      ¬ call.Reserves (Memo.slot crud.side crud.type "a") := by
    intro call hcall
    cases hcall
  have hlater : ((start Records.empty).run firstCreation).Legal (fun t event =>
      event.Uses {crud.type} ∧ ¬ t.Releases (Memo.slot crud.side crud.type "a") event)
      laterCalls := by
    refine ⟨⟨rfl, id⟩, ⟨rfl, id⟩, ⟨trivial, ?_⟩, ⟨trivial, ?_⟩, ⟨rfl, id⟩, ⟨trivial, ?_⟩, ⟨rfl, id⟩,
      trivial⟩
    · rintro ⟨call, hcall, hreleases⟩
      cases hcall
      exact hreleases
    · rintro ⟨call, hcall, hreleases⟩
      cases hcall
      exact hreleases
    · rintro ⟨call, hcall, hreleases⟩
      cases hcall
      obtain ⟨key, hkey, hslot⟩ := hreleases
      rw [← Memo.slot_inj.mp hslot] at hkey
      exact absurd hkey (by decide)
  have hevents : (start Records.empty).Legal (fun _ event => event.Uses {crud.type})
      firstCreation := ⟨rfl, trivial, trivial⟩
  have hknown : ((start Records.empty).run firstCreation).cache.recordAt?
      (Memo.slot crud.side crud.type "a") = some h := by decide
  obtain ⟨hread, hcalls⟩ :=
    record_stable hkinds Records.empty hevents rfl hknown hended hlater
  obtain ⟨hstored, hend⟩ :=
    hcalls (.listing crud) List.mem_cons_self (.ok [("b", 4), ("a", 5)]) id
  exact ⟨hread Id, fun x hx hkey => hstored x hx (congrArg (Memo.slot _ _) hkey),
    hend.trans (by decide)⟩

end Traffic

end Reconcile
