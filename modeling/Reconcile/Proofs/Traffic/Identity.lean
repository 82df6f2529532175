import Reconcile.Proofs.Cache.Tidy
import Reconcile.Proofs.Traffic.Placeholder

/-!
# Every record is under its own key

What the records that calls under way hold on to has to do with the slots: a creation has a stake
in each slot that it reserved, a read in the slot of its placeholder (`Call.stakes`). Together they
are the stakes with which the cache is tidy (`Cache.Tidy`), so that every filled record is in the
slot of its entity's key, and in no other.

The histories that keep it so are *orderly* (`Traffic.Orderly`): an entity type has one function
that gives entities their keys, a creation begins when no other call is under way and its inputs
have distinct keys, and whoever modifies an entity leaves its key alone. Nothing is asked of what
backends answer, and while they are asked other calls, except creations, may begin and end.

When no call is under way, no stake is left, and no placeholder either (`Traffic.owned_run`).
-/

namespace Reconcile

open Cache

variable {α : Type} {keyOf : EntityType → α → String}

namespace Call

/-- The side of an entity type that is called. -/
def crud : Call α → Crud α
  | creating crud _ => crud
  | reading crud _ _ => crud
  | listing crud => crud
  | updating crud => crud
  | deleting crud _ => crud

/-- The slots that a call under way has reserved, with the records reserved for them. -/
def stakes : Call α → List Stake
  | creating crud reserved => reserved.map crud.stakeOf
  | reading crud key placeholder => [(Memo.slot crud.side crud.type key, placeholder)]
  | _ => []

/-- A call that ends gives up its stakes, whatever its backend answers. -/
theorem tidy_finish {c : Cache α} {stakes : List Stake} {call : Call α}
    (hkeyOf : call.crud.keyOf = keyOf call.crud.type) (hcall : call.Backed c)
    (ht : Tidy keyOf (call.stakes ++ stakes) c) (answer : Answer α) :
    Tidy keyOf stakes (call.finish answer c) := by
  have hgivenUp := ht.sublist (List.sublist_append_right _ _)
  cases call with
  | creating crud reserved =>
    cases answer with
    | error _ => exact Crud.tidy_rollBack reserved hgivenUp
    | ok created =>
      exact Crud.tidy_finishCreate hkeyOf reserved created ht fun r hr => (hcall r hr).1
  | reading crud key placeholder =>
    cases answer with
    | error _ => exact hgivenUp.evictRecord crud.side key placeholder
    | ok found => exact Crud.tidy_finishRead hkeyOf found ht (hcall placeholder rfl).1
  | listing crud =>
    cases answer with
    | error _ => exact ht
    | ok found => exact Crud.tidy_mergeAll hkeyOf found ht
  | updating crud =>
    cases answer with
    | error _ => exact ht
    | ok updated => exact Crud.tidy_mergeAll hkeyOf updated ht
  | deleting crud keys =>
    cases answer with
    | error _ => exact ht
    | ok _ => exact Crud.tidy_evictAll keys ht

end Call

/-- The read of a key adds a stake if it has to ask its backend, and changes nothing otherwise. -/
theorem Crud.tidy_beginRead {c : Cache α} {stakes : List Stake} (crud : Crud α) (key : String)
    (ht : Tidy keyOf stakes c) :
    Tidy keyOf (((Request.read key).begin crud c).1.toList.flatMap Call.stakes ++ stakes)
      ((Request.read key).begin crud c).2 := by
  cases hfound : c.memo.find? crud.side crud.type key with
  | some h =>
    rw [Request.begin_read_of_some hfound]
    exact ht
  | none =>
    have hreserve := ht.reserve crud.side crud.type key hfound
    rw [c.record_reserve, hfound, Option.getD_none] at hreserve
    rw [Request.begin_read_of_none hfound]
    exact hreserve

namespace Traffic

/-- What an event has to respect in a state, for the cache to stay tidy. -/
def Allows (keyOf : EntityType → α → String) (t : Traffic α) : Event α → Prop
  /- The keys of the inputs are distinct, and no other call is under way. -/
  | .begin crud (.create entities) =>
    crud.keyOf = keyOf crud.type ∧ (entities.map crud.keyOf).Nodup ∧ t.calls = []
  | .begin crud _ => crud.keyOf = keyOf crud.type
  | .finish _ _ => True
  | .flush _ => True
  /- The entity keeps its key. -/
  | .modify h f => ∀ e ∈ t.cache.entity? h, ∀ type, keyOf type (f e) = keyOf type e

/-- A history all of whose events respect the state in which they happen. -/
def Orderly (keyOf : EntityType → α → String) (t : Traffic α) (events : List (Event α)) : Prop :=
  t.Legal (Allows keyOf) events

/-- The stakes of all calls under way. -/
def stakes (t : Traffic α) : List Stake := t.calls.flatMap Call.stakes

/-- **Identity**: the cache is tidy with the stakes of the calls under way, all of which use the
same keys. -/
structure Tidy (keyOf : EntityType → α → String) (t : Traffic α) : Prop where
  sound : t.Sound
  cache : t.cache.Tidy keyOf t.stakes
  keyed : ∀ call ∈ t.calls, call.crud.keyOf = keyOf call.crud.type

theorem tidy_start (keyOf : EntityType → α → String) (records : Records α) :
    (start records).Tidy keyOf := by
  have hvacant : ∀ {s h}, (start records).cache.recordAt? s ≠ some h := fun {s h} hs => by
    simp [recordAt?, start, Memo.empty] at hs
  refine ⟨sound_start records, ⟨(sound_start records).cache, fun hs => absurd hs hvacant,
    fun hs => absurd hs hvacant, ?_, ?_, List.Pairwise.nil⟩, ?_⟩
  · exact fun x hx => absurd hx List.not_mem_nil
  · exact fun x hx => absurd hx List.not_mem_nil
  · exact fun call hcall => absurd hcall List.not_mem_nil

/-- The stakes after a call has begun, and the function that gives it its keys. -/
theorem Tidy.begin {t : Traffic α} (ht : t.Tidy keyOf) {crud : Crud α} {request : Request α}
    (hallows : t.Allows keyOf (.begin crud request)) :
    (request.begin crud t.cache).2.Tidy keyOf
        ((request.begin crud t.cache).1.toList.flatMap Call.stakes ++ t.stakes) ∧
      ∀ call ∈ (request.begin crud t.cache).1, call.crud.keyOf = keyOf call.crud.type := by
  cases request with
  | create entities =>
    -- no call is under way, so the stakes of the inputs are the only ones
    obtain ⟨hkeyOf, hdistinct, hidle⟩ := hallows
    have hnone : t.stakes = [] := by rw [stakes, hidle, List.flatMap_nil]
    refine ⟨?_, fun call hcall => by cases hcall; exact hkeyOf⟩
    have hreserved := Crud.tidy_reserveAll hkeyOf entities hdistinct ht.cache
      (by simp [hnone]) (by simp [hnone])
    simpa [Request.begin, Call.stakes] using hreserved
  | read key =>
    refine ⟨crud.tidy_beginRead key ht.cache, fun call hcall => ?_⟩
    cases hfound : t.cache.memo.find? crud.side crud.type key with
    | some h =>
      rw [Request.begin_read_of_some hfound] at hcall
      cases hcall
    | none =>
      rw [Request.begin_read_of_none hfound] at hcall
      cases hcall
      exact hallows
  | readAll => exact ⟨ht.cache, fun call hcall => by cases hcall; exact hallows⟩
  | update entities => exact ⟨ht.cache, fun call hcall => by cases hcall; exact hallows⟩
  | delete entities => exact ⟨ht.cache, fun call hcall => by cases hcall; exact hallows⟩

theorem Tidy.step {t : Traffic α} (ht : t.Tidy keyOf) {event : Event α}
    (hallows : t.Allows keyOf event) : (t.step event).Tidy keyOf := by
  have hsound := ht.sound.step event
  cases event with
  | begin crud request =>
    obtain ⟨hcache, hkeyed⟩ := ht.begin hallows
    refine ⟨hsound, ?_, fun call hcall => ?_⟩
    · change Cache.Tidy keyOf (((request.begin crud t.cache).1.toList ++ t.calls).flatMap _) _
      rw [List.flatMap_append]
      exact hcache
    · rcases List.mem_append.mp hcall with hcall | hcall
      · exact hkeyed call (Option.mem_toList.mp hcall)
      · exact ht.keyed call hcall
  | finish n answer =>
    cases hn : t.calls[n]? with
    | none => rwa [step_finish_of_none hn]
    | some call =>
      rw [step_finish_of_some hn] at hsound ⊢
      have hmem := List.mem_of_getElem? hn
      -- the order of the stakes does not matter, so the call that ends may have the first ones
      have hstakes := ht.cache.perm ((perm_eraseIdx hn).symm.flatMap_right Call.stakes)
      rw [List.flatMap_cons] at hstakes
      have hcache :=
        Call.tidy_finish (ht.keyed call hmem) (ht.sound.backed call hmem) hstakes answer
      exact ⟨hsound, hcache, fun other hother => ht.keyed other (List.mem_of_mem_eraseIdx hother)⟩
  | flush side => exact ⟨hsound, ht.cache.flush side, ht.keyed⟩
  | modify h f => exact ⟨hsound, ht.cache.modify hallows, ht.keyed⟩

/-- Every orderly history keeps the cache tidy. -/
theorem Tidy.run {t : Traffic α} (ht : t.Tidy keyOf) {events : List (Event α)}
    (horderly : t.Orderly keyOf events) : (t.run events).Tidy keyOf :=
  legal_induction (fun _ _ ht hallows => ht.step hallows) ht horderly

/-- **Every record is under its own key.** After an orderly history, when no call is under way,
every slot holds a filled record whose entity has the slot's key, and no two slots hold the same
record. So the entries of a type list what is under its keys, each key once. -/
theorem keys_consistent (keyOf : EntityType → α → String) (records : Records α)
    (events : List (Event α)) (horderly : (start records).Orderly keyOf events)
    (hidle : ((start records).run events).calls = []) :
    let c := ((start records).run events).cache
    (∀ s h, c.recordAt? s = some h → ∃ e, c.entity? h = some e ∧ keyOf h.type e = s.key) ∧
    (∀ s s' h h', c.recordAt? s = some h → c.recordAt? s' = some h' → h.place = h'.place → s = s') ∧
    ∀ side type, ∃ keys : List String, keys.Nodup ∧
      (∀ key, key ∈ keys ↔ (c.memo.find? side type key).isSome) ∧
      (c.entries side type).map some = keys.map (c.memo.find? side type) := by
  intro c
  have htidy := ((tidy_start keyOf records).run horderly).cache
  have hfilled : ∀ s h, c.recordAt? s = some h → c.entity? h ≠ none :=
    fun _ _ hs => (owned_run records events).filled hidle hs
  refine ⟨fun s h hs => ?_, fun s s' h h' => htidy.single, fun side type => ?_⟩
  · obtain ⟨e, he⟩ := Option.ne_none_iff_exists'.mp (hfilled s h hs)
    exact ⟨e, he, htidy.keyed hs he⟩
  · exact entries_once htidy.single (fun hs => hfilled _ _ hs) side type

/-- Two entities are created and swap their keys. While the backend creates them it reads a third,
and one of them is modified afterwards. -/
def swapHistory : List (Event (String × Nat)) :=
  let crud : Crud (String × Nat) := ⟨⟨"Queue", "Queue"⟩, .cloud, Prod.fst⟩
  [.begin crud (.create [("a", 1), ("b", 2)]), .begin crud (.read "c"), .finish 0 (.ok [("c", 3)]),
    .finish 0 (.ok [("b", 4), ("a", 5)]), .modify ⟨⟨"Queue", "Queue"⟩, 1⟩ fun e => (e.1, e.2 + 1)]

/-- The swap is an orderly history. The record of the second input takes in the first entity and
then moves on with the second, so one of the two slots is vacant in the end and no slot is left with
an entity of another key. -/
theorem keys_consistent_swap :
    let keyOf : EntityType → String × Nat → String := fun _ => Prod.fst
    let t := (start Records.empty).run swapHistory
    (start Records.empty).Orderly keyOf swapHistory ∧ t.calls = [] ∧
    (∀ s h, t.cache.recordAt? s = some h → ∃ e, t.cache.entity? h = some e ∧ e.1 = s.key) ∧
    ["a", "b", "c"].map (fun key => (t.cache.recordAt? ⟨.cloud, "Queue", key⟩).map (·.place)) =
      [some 1, none, some 2] := by
  intro keyOf t
  have horderly : (start Records.empty).Orderly keyOf swapHistory :=
    ⟨⟨rfl, by decide, rfl⟩, rfl, trivial, trivial, fun _ _ _ => rfl, trivial⟩
  have hidle : t.calls = [] := by rfl
  exact ⟨horderly, hidle, (keys_consistent keyOf Records.empty swapHistory horderly hidle).1,
    by decide⟩

end Traffic

end Reconcile
