import Reconcile.Proofs.Cache.Housed
import Reconcile.Proofs.Traffic.Stable

/-!
# Looking things up moves nothing

A backend may look other entities up through the cache before it answers: it may read keys and list
types, and these reads and listings may nest and overlap, fail, or find whatever they find. They
put records into vacant slots, and take those out again that they have put there for nothing. But
whatever is in a slot when the first of them begins stays there (`Traffic.Looking.keeps`), and no
record gets into a second slot (`Traffic.Looking.run`). So such a backend leaves the cache as a
creation or an update needs it in the end (`Crud.Undisturbed`).

This is said of histories of events; what a program of reads and listings does is such a history
(`Traffic.accounted_read`, `Traffic.accounted_readAll`).
-/

namespace Reconcile

open Cache

variable {α : Type} {types : Set EntityType}

/-- What a backend may do to the cache while it is asked: what is found under a key of the type
stays there, and no record gets into a second slot. -/
structure Crud.Undisturbed (crud : Crud α) (c c' : Cache α) : Prop where
  housed : Housed [] c → Housed [] c'
  found : ∀ {key h}, c.memo.find? crud.side crud.type key = some h →
    c'.memo.find? crud.side crud.type key = some h

/-- A backend may leave the cache alone. -/
theorem Crud.Undisturbed.refl (crud : Crud α) (c : Cache α) : crud.Undisturbed c c := ⟨id, id⟩

/-- The records that a creation has reserved stay where they are. -/
theorem Crud.Undisturbed.seated {crud : Crud α} {inputs : List α} {c c₂ : Cache α}
    (h : crud.Undisturbed (crud.reserveAll inputs c).2 c₂) :
    ∀ r ∈ (crud.reserveAll inputs c).1,
      c₂.memo.find? crud.side crud.type r.key = some r.record :=
  fun r hr => h.found (crud.find?_reserveAll_of_mem inputs c r hr)

/-- The event begins the read of a key or the listing of one of the types, or ends a call. -/
inductive Event.IsLookup (types : Set EntityType) : Event α → Prop
  | read {crud : Crud α} (hcrud : crud.type ∈ types) (key : String) :
    IsLookup types (.begin crud (.read key))
  | readAll {crud : Crud α} (hcrud : crud.type ∈ types) : IsLookup types (.begin crud .readAll)
  | finish (n : Nat) (answer : Answer α) : IsLookup types (.finish n answer)

theorem Event.IsLookup.uses {event : Event α} (h : event.IsLookup types) : event.Uses types := by
  cases h with
  | read hcrud key => exact hcrud
  | readAll hcrud => exact hcrud
  | finish n answer => trivial

namespace Call

/-- The call is a read or a listing. -/
inductive IsLookup : Call α → Prop
  | reading (crud : Crud α) (key : String) (p : Handle) : IsLookup (.reading crud key p)
  | listing (crud : Crud α) : IsLookup (.listing crud)

/-- Looking things up vacates no slot for good. -/
theorem IsLookup.not_releases {call : Call α} (h : call.IsLookup) (s : Slot)
    (answer : Answer α) : ¬ call.Releases s answer := by
  cases h <;> cases answer <;> exact id

/-- A read or a listing that ends gives up its stakes, and no record gets into a second slot. -/
theorem IsLookup.housed_finish {c : Cache α} {stakes : List Stake} {call : Call α}
    (h : call.IsLookup) (hcall : call.Backed c) (hc : Housed (call.stakes ++ stakes) c)
    (answer : Answer α) : Housed stakes (call.finish answer c) := by
  have hgivenUp := hc.sublist (List.sublist_append_right _ _)
  cases h with
  | reading crud key p =>
    cases answer with
    | error _ => exact hgivenUp.evictRecord crud.side key p
    | ok found => exact Crud.housed_finishRead found hc (hcall p rfl).1
  | listing crud =>
    cases answer with
    | error _ => exact hgivenUp
    | ok found => exact Crud.housed_mergeAll found hgivenUp

end Call

namespace Traffic

/-- Only reads and listings are under way, and no record is in two slots. -/
structure Looking (types : Set EntityType) (t : Traffic α) : Prop where
  sound : t.Sound
  typed : t.Typed types
  housed : t.cache.Housed t.stakes
  lookups : ∀ call ∈ t.calls, call.IsLookup

variable {t : Traffic α}

/-- No call is under way yet. -/
theorem looking_idle {c : Cache α} (hc : Housed [] c)
    (htypes : ∀ {s h}, c.recordAt? s = some h → h.type ∈ types) :
    (Traffic.mk c []).Looking types :=
  ⟨⟨hc.sound, fun _ hcall => absurd hcall List.not_mem_nil⟩,
    ⟨htypes, fun _ hcall => absurd hcall List.not_mem_nil⟩, hc,
    fun _ hcall => absurd hcall List.not_mem_nil⟩

namespace Looking

/-- The read of a key begins. It has a stake in the slot of the key if it asks its backend. -/
theorem begin_read (ht : t.Looking types) {crud : Crud α} (hcrud : crud.type ∈ types)
    (key : String) : (t.step (.begin crud (.read key))).Looking types := by
  have hsound := ht.sound.step (.begin crud (.read key))
  have huses : (Event.begin crud (.read key)).Uses types := hcrud
  have htyped := ht.typed.step ht.sound huses
  cases hfound : t.cache.memo.find? crud.side crud.type key with
  | some h =>
    simp only [step, Request.begin_read_of_some hfound]
    exact ht
  | none =>
    have hreserve := ht.housed.reserve crud.side crud.type key hfound
    rw [t.cache.record_reserve, hfound, Option.getD_none] at hreserve
    simp only [step, Request.begin_read_of_none hfound] at hsound htyped ⊢
    exact ⟨hsound, htyped, hreserve, List.forall_mem_cons.mpr ⟨.reading .., ht.lookups⟩⟩

/-- A call ends. -/
theorem finish (ht : t.Looking types) (n : Nat) (answer : Answer α) :
    (t.step (.finish n answer)).Looking types := by
  have hsound := ht.sound.step (.finish n answer)
  have huses : (Event.finish n answer).Uses types := trivial
  have htyped := ht.typed.step ht.sound huses
  cases hn : t.calls[n]? with
  | none => rwa [step_finish_of_none hn]
  | some call =>
    rw [step_finish_of_some hn] at hsound htyped ⊢
    have hmem := List.mem_of_getElem? hn
    -- the order of the stakes does not matter, so the call that ends may have the first ones
    have hstakes := ht.housed.perm ((perm_eraseIdx hn).symm.flatMap_right Call.stakes)
    rw [List.flatMap_cons] at hstakes
    exact ⟨hsound, htyped,
      (ht.lookups call hmem).housed_finish (ht.sound.backed call hmem) hstakes answer,
      fun other hother => ht.lookups other (List.mem_of_mem_eraseIdx hother)⟩

theorem step (ht : t.Looking types) {event : Event α} (h : event.IsLookup types) :
    (t.step event).Looking types := by
  cases h with
  | read hcrud key => exact ht.begin_read hcrud key
  | readAll hcrud =>
    exact ⟨ht.sound.step _, ht.typed.step ht.sound hcrud, ht.housed,
      List.forall_mem_cons.mpr ⟨.listing _, ht.lookups⟩⟩
  | finish n answer => exact ht.finish n answer

/-- A lookup releases no slot. -/
theorem not_releases (ht : t.Looking types) {event : Event α} (h : event.IsLookup types)
    (s : Slot) : ¬ t.Releases s event := by
  cases h with
  | read hcrud key => exact id
  | readAll hcrud => exact id
  | finish n answer =>
    rintro ⟨call, hn, hreleases⟩
    exact (ht.lookups call (List.mem_of_getElem? hn)).not_releases s answer hreleases

/-- **No record gets into a second slot** while things are looked up. -/
theorem run (ht : t.Looking types) {events : List (Event α)}
    (h : ∀ event ∈ events, event.IsLookup types) : (t.run events).Looking types := by
  induction events generalizing t with
  | nil => exact ht
  | cons event events ih =>
    obtain ⟨hfirst, hrest⟩ := List.forall_mem_cons.mp h
    exact ih (ht.step hfirst) hrest

/-- **A record stays in its slot** while things are looked up, if no call that is under way has
reserved the slot. -/
theorem settled_run (hkinds : types.InjOn EntityType.kind) (ht : t.Looking types) {s : Slot}
    {h : Handle} (hs : t.Settled s h) {events : List (Event α)}
    (hlookups : ∀ event ∈ events, event.IsLookup types) : (t.run events).Settled s h := by
  induction events generalizing t with
  | nil => exact hs
  | cons event events ih =>
    obtain ⟨hfirst, hrest⟩ := List.forall_mem_cons.mp hlookups
    exact ih (ht.step hfirst) (hs.step hkinds ht.sound ht.typed hfirst.uses
      (ht.not_releases hfirst s)) hrest

/-- What is in a slot before anything is looked up is there afterwards. -/
theorem keeps (hkinds : types.InjOn EntityType.kind) {c : Cache α}
    (hc : (Traffic.mk c []).Looking types) {events : List (Event α)}
    (hlookups : ∀ event ∈ events, event.IsLookup types) {s : Slot} {h : Handle}
    (hs : c.recordAt? s = some h) : ((Traffic.mk c []).run events).cache.recordAt? s = some h :=
  (hc.settled_run hkinds ⟨hs, fun _ hcall => absurd hcall List.not_mem_nil⟩ hlookups).slot

/-- **Lookups disturb nothing** under which an entity type has its records. -/
theorem undisturbed (hkinds : types.InjOn EntityType.kind) (crud : Crud α) {c : Cache α}
    (hc : (Traffic.mk c []).Looking types) {events : List (Event α)}
    (hlookups : ∀ event ∈ events, event.IsLookup types) :
    crud.Undisturbed c ((Traffic.mk c []).run events).cache where
  housed _ := (hc.run hlookups).housed.sublist (List.nil_sublist _)
  found hh := by
    obtain ⟨hs, htype⟩ := find?_eq_some.mp hh
    exact find?_eq_some.mpr ⟨hc.keeps hkinds hlookups hs, htype⟩

end Looking

end Traffic

end Reconcile
