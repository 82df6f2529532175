import Mathlib.Data.List.Perm.Basic
import Reconcile.Proofs.Cache.Phases

/-!
# Calls under way

All calls on one cache, in any interleaving. A call is under way from the moment at which it asks
its backend until the backend's answer has been taken in; in between, other calls begin and end,
among them those that the backend itself makes. So the state is a cache with the calls that are
under way (`Traffic`), and there are four kinds of events:

* A call **begins**: it does what it does before its backend is asked, and is under way from then
  on. The read of a key whose slot is taken is over at once.
* A call **ends**: its backend answers with entities or fails, whatever it was asked, and the call
  takes the answer in.
* A side is **flushed**.
* Whoever holds the handle of a record **modifies** the entity in it.

No call is dropped: a call that is under way stays so until it ends. The phases in which calls do
their work are those of `Crud`, unchanged.
-/

namespace Reconcile

/-- What a caller asks of one side of an entity type. -/
inductive Request (α : Type) where
  | create (entities : List α)
  | read (key : String)
  | readAll
  | update (entities : List α)
  | delete (entities : List α)

/-- What a backend answers: entities, or the cause of its failure. -/
abbrev Answer (α : Type) := Except String (List α)

/-- A call that waits for its backend, with what it has to remember. -/
inductive Call (α : Type) where
  | creating (crud : Crud α) (reserved : List Crud.Reserved)
  | reading (crud : Crud α) (key : String) (placeholder : Handle)
  | listing (crud : Crud α)
  | updating (crud : Crud α)
  /-- The keys are those that the inputs had before the call. -/
  | deleting (crud : Crud α) (keys : List String)

variable {α : Type}

/-- Begins a call. It is under way afterwards, unless it is a read that the memo answers. -/
def Request.begin (crud : Crud α) : Request α → Cache α → Option (Call α) × Cache α
  | create entities, c =>
    let (reserved, c) := crud.reserveAll entities c
    (some (.creating crud reserved), c)
  | read key, c =>
    match crud.beginRead key c with
    | (.known _, c) => (none, c)
    | (.asked placeholder, c) => (some (.reading crud key placeholder), c)
  | readAll, c => (some (.listing crud), c)
  | update _, c => (some (.updating crud), c)
  | delete entities, c => (some (.deleting crud (entities.map crud.keyOf)), c)

/-- A read whose key is found is never under way. -/
theorem Request.begin_read_of_some {crud : Crud α} {key : String} {c : Cache α} {h : Handle}
    (hfound : c.memo.find? crud.side crud.type key = some h) :
    (Request.read key).begin crud c = (none, c) := by
  simp only [Request.begin, crud.beginRead_of_some hfound]

/-- A read whose key is not found is under way with a new record. -/
theorem Request.begin_read_of_none {crud : Crud α} {key : String} {c : Cache α}
    (hvacant : c.memo.find? crud.side crud.type key = none) :
    (Request.read key).begin crud c =
      (some (.reading crud key (c.nextRecord crud.type)),
        (c.reserve crud.side crud.type key).2) := by
  simp only [Request.begin, crud.beginRead_of_none hvacant]

namespace Call

/-- Ends a call with the answer of its backend. Of a deletion only its success counts. -/
def finish : Call α → Answer α → Cache α → Cache α
  | creating crud reserved, .error _, c => crud.rollBack reserved c
  | creating crud reserved, .ok created, c => (crud.finishCreate reserved created c).2
  | reading crud key placeholder, .error _, c => crud.abandonRead key placeholder c
  | reading crud key placeholder, .ok found, c => (crud.finishRead key placeholder found c).2
  | listing _, .error _, c => c
  | listing crud, .ok found, c => (crud.mergeAll found c).2
  | updating _, .error _, c => c
  | updating crud, .ok updated, c => (crud.mergeAll updated c).2
  | deleting _ _, .error _, c => c
  | deleting crud keys, .ok _, c => crud.evictAll keys c

/-- The records that a call remembers exist and are of its type. -/
def Backed (c : Cache α) : Call α → Prop
  | creating crud reserved => ∀ r ∈ reserved, crud.Holds c r
  | reading crud _ placeholder => c.Admits crud.type (some placeholder)
  | _ => True

theorem Backed.mono {c c' : Cache α} (hhas : ∀ {h}, c.Has h → c'.Has h) {call : Call α}
    (h : call.Backed c) : call.Backed c' := by
  cases call with
  | creating crud reserved => exact fun r hr => ⟨(h r hr).1, hhas (h r hr).2⟩
  | reading crud key placeholder => exact fun k hk => ⟨(h k hk).1, hhas (h k hk).2⟩
  | listing crud => trivial
  | updating crud => trivial
  | deleting crud keys => trivial

/-- No call leaves a new placeholder behind when it ends. -/
theorem calm_finish {c : Cache α} (hc : c.Sound) {call : Call α} (hcall : call.Backed c)
    (answer : Answer α) : Cache.Calm c (call.finish answer c) := by
  cases call with
  | creating crud reserved =>
    cases answer with
    | error _ => exact crud.calm_rollBack reserved hc
    | ok created => exact crud.calm_finishCreate reserved created hc hcall
  | reading crud key placeholder =>
    cases answer with
    | error _ => exact Cache.calm_evictRecord hc crud.side key placeholder
    | ok found => exact crud.calm_finishRead found hc hcall
  | listing crud =>
    cases answer with
    | error _ => exact Cache.Calm.refl hc
    | ok found => exact crud.calm_mergeAll found hc
  | updating crud =>
    cases answer with
    | error _ => exact Cache.Calm.refl hc
    | ok updated => exact crud.calm_mergeAll updated hc
  | deleting crud keys =>
    cases answer with
    | error _ => exact Cache.Calm.refl hc
    | ok _ => exact crud.calm_evictAll keys hc

end Call

/-- Something that happens to a cache on which calls are under way. -/
inductive Event (α : Type) where
  | begin (crud : Crud α) (request : Request α)
  /-- The call that stands at place `n` among those under way gets its answer. -/
  | finish (n : Nat) (answer : Answer α)
  | flush (side : Side)
  | modify (h : Handle) (f : α → α)

/-- A cache and the calls that are under way on it. -/
structure Traffic (α : Type) where
  cache : Cache α
  calls : List (Call α)

namespace Traffic

/-- A context that has not been used: its memo is vacant, whatever records there are elsewhere. -/
def start (records : Records α) : Traffic α := ⟨⟨records, Memo.empty⟩, []⟩

/-- What one event does. -/
def step (t : Traffic α) : Event α → Traffic α
  | .begin crud request =>
    let (call, c) := request.begin crud t.cache
    ⟨c, call.toList ++ t.calls⟩
  | .finish n answer =>
    match t.calls[n]? with
    | some call => ⟨call.finish answer t.cache, t.calls.eraseIdx n⟩
    | none => t
  | .flush side => ⟨t.cache.flush side, t.calls⟩
  | .modify h f => ⟨t.cache.modify h f, t.calls⟩

theorem step_finish_of_some {t : Traffic α} {n : Nat} {call : Call α} (h : t.calls[n]? = some call)
    (answer : Answer α) :
    t.step (.finish n answer) = ⟨call.finish answer t.cache, t.calls.eraseIdx n⟩ := by
  simp only [step, h]

theorem step_finish_of_none {t : Traffic α} {n : Nat} (h : t.calls[n]? = none)
    (answer : Answer α) : t.step (.finish n answer) = t := by
  simp only [step, h]

/-- What a sequence of events does. -/
def run (t : Traffic α) (events : List (Event α)) : Traffic α := events.foldl step t

@[simp]
theorem run_nil (t : Traffic α) : t.run [] = t := rfl

@[simp]
theorem run_cons (t : Traffic α) (event : Event α) (events : List (Event α)) :
    t.run (event :: events) = (t.step event).run events := rfl

theorem run_append (t : Traffic α) (events events' : List (Event α)) :
    t.run (events ++ events') = (t.run events).run events' := List.foldl_append

/-- A history each of whose events satisfies `P` in the state in which it happens. -/
def Legal (P : Traffic α → Event α → Prop) : Traffic α → List (Event α) → Prop
  | _, [] => True
  | t, event :: events => P t event ∧ Legal P (t.step event) events

theorem legal_append {P : Traffic α → Event α → Prop} {t : Traffic α}
    {events events' : List (Event α)} :
    t.Legal P (events ++ events') ↔ t.Legal P events ∧ (t.run events).Legal P events' := by
  induction events generalizing t with
  | nil => exact ⟨fun h => ⟨trivial, h⟩, fun h => h.2⟩
  | cons event events ih => exact (and_congr_right fun _ => ih).trans and_assoc.symm

/-- What every event keeps, every run keeps. -/
theorem run_induction {P : Traffic α → Prop} (hstep : ∀ t event, P t → P (t.step event))
    {t : Traffic α} (ht : P t) (events : List (Event α)) : P (t.run events) := by
  induction events generalizing t with
  | nil => exact ht
  | cons event events ih => exact ih (hstep t event ht)

/-- What every event that satisfies `P` keeps, every such history keeps. -/
theorem legal_induction {P : Traffic α → Event α → Prop} {Q : Traffic α → Prop}
    (hstep : ∀ t event, Q t → P t event → Q (t.step event)) {t : Traffic α} (ht : Q t)
    {events : List (Event α)} (hlegal : t.Legal P events) : Q (t.run events) := by
  induction events generalizing t with
  | nil => exact ht
  | cons event events ih => exact ih (hstep t event ht hlegal.1) hlegal.2

/-- The calls that are under way after one of them has ended. -/
theorem perm_eraseIdx {t : Traffic α} {n : Nat} {call : Call α} (h : t.calls[n]? = some call) :
    (call :: t.calls.eraseIdx n).Perm t.calls := by
  obtain ⟨hlt, rfl⟩ := List.getElem?_eq_some_iff.mp h
  exact List.getElem_cons_eraseIdx_perm hlt

/-! ### Soundness -/

/-- The cache is sound, and the records that calls remember exist. -/
structure Sound (t : Traffic α) : Prop where
  cache : t.cache.Sound
  backed : ∀ call ∈ t.calls, call.Backed t.cache

theorem sound_start (records : Records α) : (start records).Sound :=
  ⟨⟨fun hs => by simp [Cache.recordAt?, start, Memo.empty] at hs,
    fun hs => by simp [Cache.recordAt?, start, Memo.empty] at hs⟩,
    fun _ hcall => absurd hcall List.not_mem_nil⟩

/-- A call begins on a sound cache: records last, and those that it remembers exist. -/
theorem sound_begin {c : Cache α} (hc : c.Sound) (crud : Crud α) (request : Request α) :
    (request.begin crud c).2.Sound ∧ (∀ {h}, c.Has h → (request.begin crud c).2.Has h) ∧
      ∀ call ∈ (request.begin crud c).1, call.Backed (request.begin crud c).2 := by
  cases request with
  | create entities =>
    have hcalm := crud.calm_reserveAll entities hc
    refine ⟨hcalm.sound, hcalm.has, fun call hcall => ?_⟩
    cases hcall
    exact crud.holds_reserveAll entities hc
  | read key =>
    cases hfound : c.memo.find? crud.side crud.type key with
    | some h =>
      rw [Request.begin_read_of_some hfound]
      exact ⟨hc, id, fun call hcall => by cases hcall⟩
    | none =>
      have hreserved := hc.has_reserved crud.side crud.type key
      rw [c.record_reserve, hfound, Option.getD_none] at hreserved
      rw [Request.begin_read_of_none hfound]
      refine ⟨hc.reserve crud.side crud.type key, fun hh => hh.reserve crud.side crud.type key,
        fun call hcall => ?_⟩
      cases hcall
      exact Cache.admits_some crud.type rfl hreserved
  | readAll => exact ⟨hc, id, fun call hcall => by cases hcall; trivial⟩
  | update entities => exact ⟨hc, id, fun call hcall => by cases hcall; trivial⟩
  | delete entities => exact ⟨hc, id, fun call hcall => by cases hcall; trivial⟩

theorem Sound.step {t : Traffic α} (ht : t.Sound) (event : Event α) : (t.step event).Sound := by
  cases event with
  | begin crud request =>
    obtain ⟨hsound, hhas, hnew⟩ := sound_begin ht.cache crud request
    refine ⟨hsound, fun call hcall => ?_⟩
    rcases List.mem_append.mp hcall with hcall | hcall
    · exact hnew call (Option.mem_toList.mp hcall)
    · exact (ht.backed call hcall).mono hhas
  | finish n answer =>
    cases hn : t.calls[n]? with
    | none => rwa [step_finish_of_none hn]
    | some call =>
      rw [step_finish_of_some hn]
      have hcalm := Call.calm_finish ht.cache (ht.backed call (List.mem_of_getElem? hn)) answer
      exact ⟨hcalm.sound, fun other hother =>
        (ht.backed other (List.mem_of_mem_eraseIdx hother)).mono hcalm.has⟩
  | flush side =>
    exact ⟨(Cache.calm_flush ht.cache side).sound, fun call hcall => ht.backed call hcall⟩
  | modify h f =>
    have hcalm := Cache.calm_modify ht.cache h f
    exact ⟨hcalm.sound, fun call hcall => (ht.backed call hcall).mono hcalm.has⟩

/-- **Soundness**: whatever calls run in whatever order, slots and calls refer to records that
exist. -/
theorem sound_run (records : Records α) (events : List (Event α)) :
    ((start records).run events).Sound :=
  run_induction (fun _ event ht => ht.step event) (sound_start records) events

end Traffic

end Reconcile
