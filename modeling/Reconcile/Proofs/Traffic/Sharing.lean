import Mathlib.Data.List.Count
import Reconcile.Proofs.Traffic.Stable

/-!
# Reads of one key share one call and one record

While the backend is asked for a key, every other read of the key is answered by the memo, with the
placeholder of the read that asks. So at any moment the backend is asked for each key at most once,
and when it answers with an entity of the key, the read that asked and all reads that began
meanwhile have one and the same record, which is filled from then on: `Traffic.reads_share`.

This holds as long as the type's calls are reads and listings, which never vacate a slot but that of
their own placeholder (`Traffic.Shared`). Other sides and types, whose slots are apart
(`Crud.Apart`), may do whatever they want, and so backends may read other entities while they are
asked.
-/

namespace Reconcile

open Cache

variable {α : Type} {crud other : Crud α} {c c' : Cache α}

namespace Crud

/-- The two have no slot in common, being of different sides or kinds. -/
def Apart (other crud : Crud α) : Prop :=
  ∀ key key', Memo.slot crud.side crud.type key ≠ Memo.slot other.side other.type key'

/-- Calls of another side or kind leave the slots of a type alone. -/
theorem Keeps.slot_of_apart {loose : Slot → Prop} (h : other.Keeps loose c c')
    (hapart : other.Apart crud)
    (hloose : ∀ s, loose s → ∃ key, s = Memo.slot other.side other.type key) {key : String}
    {p : Handle} (hs : c.recordAt? (Memo.slot crud.side crud.type key) = some p) :
    c'.recordAt? (Memo.slot crud.side crud.type key) = some p :=
  h.slot (fun key' hslot => absurd hslot (hapart key key'))
    (fun hvacated => (hloose _ hvacated).elim fun key' => hapart key key') hs

end Crud

/-- Whether the call waits for its backend to read the key of the slot. -/
def Call.asksFor (s : Slot) : Call α → Bool
  | reading crud key _ => decide (s = Memo.slot crud.side crud.type key)
  | _ => false

/-- Calls of another side or kind ask for other keys. -/
theorem Call.not_asksFor {call : Call α} (hapart : call.crud.Apart crud) (key : String) :
    ¬ call.asksFor (Memo.slot crud.side crud.type key) := by
  cases call with
  | reading other key' p => exact fun h => hapart key key' (of_decide_eq_true h)
  | creating other reserved => exact Bool.false_ne_true
  | listing other => exact Bool.false_ne_true
  | updating other => exact Bool.false_ne_true
  | deleting other keys => exact Bool.false_ne_true

/-- The event is a read or a listing of the type, or has to do with other sides and kinds only. -/
def Event.Shares (crud : Crud α) : Event α → Prop
  | .begin other (.read _) => other = crud ∨ other.Apart crud
  | .begin other .readAll => other = crud ∨ other.Apart crud
  | .begin other _ => other.Apart crud
  | .flush side => side ≠ crud.side
  | _ => True

namespace Traffic

/-- A record that is filled stays filled, whatever happens. -/
theorem filled_step {t : Traffic α} (ht : t.Sound) (event : Event α) {h : Handle}
    (hh : t.cache.entity? h ≠ none) : (t.step event).cache.entity? h ≠ none := by
  cases event with
  | begin crud request => exact (request.keeps_begin ht.cache crud).filled hh
  | finish n answer =>
    cases hn : t.calls[n]? with
    | none => rwa [step_finish_of_none hn]
    | some call =>
      rw [step_finish_of_some hn]
      have hbacked := ht.backed call (List.mem_of_getElem? hn)
      exact (call.keeps_finish ht.cache hbacked answer).filled hh
  | flush side => exact hh
  | modify k f =>
    change (t.cache.modify k f).entity? h ≠ none
    rw [entity?_modify]
    split_ifs
    · rwa [Ne, Option.map_eq_none_iff]
    · exact hh

theorem filled_run {t : Traffic α} (ht : t.Sound) (events : List (Event α)) {h : Handle}
    (hh : t.cache.entity? h ≠ none) : (t.run events).cache.entity? h ≠ none :=
  (run_induction (P := fun t => t.Sound ∧ t.cache.entity? h ≠ none)
    (fun _ event ht => ⟨ht.1.step event, filled_step ht.1 event ht.2⟩) ⟨ht, hh⟩ events).2

/-- **Sharing**: the calls of the type that are under way are reads and listings, each read's
placeholder is in the slot of its key, and no two reads are of one key. -/
structure Shared (crud : Crud α) (t : Traffic α) : Prop where
  sound : t.Sound
  calls : ∀ call ∈ t.calls,
    call.crud.Apart crud ∨ call = .listing crud ∨ ∃ key p, call = .reading crud key p
  held : ∀ {key p}, Call.reading crud key p ∈ t.calls →
    t.cache.recordAt? (Memo.slot crud.side crud.type key) = some p
  once : ∀ key, t.calls.countP (Call.asksFor (Memo.slot crud.side crud.type key)) ≤ 1

theorem shared_of_idle {t : Traffic α} (ht : t.Sound)
    (hidle : ∀ call ∈ t.calls, call.crud.Apart crud) : t.Shared crud := by
  refine ⟨ht, fun call hcall => Or.inl (hidle call hcall), fun {key p} hcall => ?_,
    fun key => ?_⟩
  · exact absurd rfl (hidle _ hcall key key)
  · rw [List.countP_eq_zero.mpr fun call hcall => Call.not_asksFor (hidle call hcall) key]
    exact Nat.zero_le 1

/-- The placeholder of a read is of the read's type, whatever slot it is in. -/
theorem Shared.knows {t : Traffic α} (ht : t.Shared crud) {key : String} {p : Handle}
    (hcall : Call.reading crud key p ∈ t.calls) (s : Slot) : crud.Knows s p :=
  fun _ _ => (ht.sound.backed _ hcall p rfl).1

/-- The placeholder of a read is found under its key. -/
theorem Shared.find? {t : Traffic α} (ht : t.Shared crud) {key : String} {p : Handle}
    (hcall : Call.reading crud key p ∈ t.calls) :
    t.cache.memo.find? crud.side crud.type key = some p :=
  (ht.knows hcall _).find? (ht.held hcall)

/-- Nobody asks for a key under which nothing is found. -/
theorem Shared.count_eq_zero {t : Traffic α} (ht : t.Shared crud) {key : String}
    (hvacant : t.cache.memo.find? crud.side crud.type key = none) :
    t.calls.countP (Call.asksFor (Memo.slot crud.side crud.type key)) = 0 := by
  refine List.countP_eq_zero.mpr fun call hcall hasks => ?_
  rcases ht.calls call hcall with hapart | rfl | ⟨key', p, rfl⟩
  · exact Call.not_asksFor hapart key hasks
  · exact Bool.false_ne_true hasks
  · obtain rfl := Memo.slot_inj.mp (of_decide_eq_true hasks)
    rw [ht.find? hcall] at hvacant
    cases hvacant

/-- A call of another side or kind begins. -/
theorem Shared.begin_apart {t : Traffic α} (ht : t.Shared crud) (hapart : other.Apart crud)
    (request : Request α) : (t.step (.begin other request)).Shared crud := by
  have hkeeps := request.keeps_begin ht.sound.cache other
  have hnew : ∀ call ∈ (request.begin other t.cache).1.toList, call.crud.Apart crud :=
    fun call hcall => by rwa [Request.crud_begin (Option.mem_toList.mp hcall)]
  refine ⟨ht.sound.step _, fun call hcall => ?_, fun {key p} hcall => ?_, fun key => ?_⟩
  · rcases List.mem_append.mp hcall with hcall | hcall
    · exact Or.inl (hnew call hcall)
    · exact ht.calls call hcall
  · rcases List.mem_append.mp hcall with hcall | hcall
    · exact absurd rfl (hnew _ hcall key key)
    · exact hkeeps.slot_of_apart hapart (fun _ => False.elim) (ht.held hcall)
  · change List.countP _ ((request.begin other t.cache).1.toList ++ t.calls) ≤ 1
    rw [List.countP_append, List.countP_eq_zero.mpr fun call hcall =>
      Call.not_asksFor (hnew call hcall) key, Nat.zero_add]
    exact ht.once key

/-- A read of the type begins. It asks its backend only if nobody else does. -/
theorem Shared.begin_read {t : Traffic α} (ht : t.Shared crud) (key : String) :
    (t.step (.begin crud (.read key))).Shared crud := by
  cases hfound : t.cache.memo.find? crud.side crud.type key with
  | some h =>
    simp only [step, Request.begin_read_of_some hfound]
    exact ht
  | none =>
    have hsound := ht.sound.step (.begin crud (.read key))
    have hkeeps := Crud.keeps_reserve crud key t.cache
    have hslot := t.cache.recordAt?_reserve crud.side crud.type key
      (Memo.slot crud.side crud.type key)
    rw [if_pos rfl, t.cache.record_reserve, hfound, Option.getD_none] at hslot
    simp only [step, Request.begin_read_of_none hfound] at hsound ⊢
    refine ⟨hsound, fun call hcall => ?_, fun {key' p} hcall => ?_, fun key' => ?_⟩
    · rcases List.mem_cons.mp hcall with rfl | hcall
      · exact Or.inr (Or.inr ⟨key, _, rfl⟩)
      · exact ht.calls call hcall
    · rcases List.mem_cons.mp hcall with heq | hcall
      · cases heq
        exact hslot
      · exact hkeeps.slot (ht.knows hcall _) id (ht.held hcall)
    · change List.countP _ (_ :: t.calls) ≤ 1
      rw [List.countP_cons]
      split_ifs with hasks
      · obtain rfl := Memo.slot_inj.mp (of_decide_eq_true hasks)
        rw [ht.count_eq_zero hfound]
      · exact ht.once key'

/-- A listing of the type begins. -/
theorem Shared.begin_readAll {t : Traffic α} (ht : t.Shared crud) :
    (t.step (.begin crud .readAll)).Shared crud := by
  refine ⟨ht.sound.step _, fun call hcall => ?_, fun hcall => ?_, fun key => ?_⟩
  · rcases List.mem_cons.mp hcall with rfl | hcall
    · exact Or.inr (Or.inl rfl)
    · exact ht.calls call hcall
  · rcases List.mem_cons.mp hcall with heq | hcall
    · cases heq
    · exact ht.held hcall
  · exact ht.once key

/-- The calls of some sort, counted before and after one call has ended. -/
theorem countP_calls {t : Traffic α} {n : Nat} {call : Call α} (hn : t.calls[n]? = some call)
    (p : Call α → Bool) :
    t.calls.countP p = (t.calls.eraseIdx n).countP p + if p call then 1 else 0 := by
  rw [← List.countP_cons, (perm_eraseIdx hn).countP_eq]

/-- Two reads that are under way are of different keys. -/
theorem Shared.key_ne {t : Traffic α} (ht : t.Shared crud) {n : Nat} {key key' : String}
    {p p' : Handle} (hn : t.calls[n]? = some (.reading crud key' p'))
    (hcall : Call.reading crud key p ∈ t.calls.eraseIdx n) : key ≠ key' := by
  rintro rfl
  have hends : (Call.reading crud key p').asksFor (Memo.slot crud.side crud.type key) :=
    decide_eq_true rfl
  have hother : 0 <
      (t.calls.eraseIdx n).countP (Call.asksFor (Memo.slot crud.side crud.type key)) :=
    List.countP_pos_iff.mpr ⟨_, hcall, decide_eq_true rfl⟩
  have hone := ht.once key
  rw [countP_calls hn, if_pos hends] at hone
  omega

/-- A call ends. Only the read of a key itself vacates the slot of the key, and then no call for it
is left. -/
theorem Shared.finish {t : Traffic α} (ht : t.Shared crud) {n : Nat} {call : Call α}
    (hn : t.calls[n]? = some call) (answer : Answer α) :
    (t.step (.finish n answer)).Shared crud := by
  have hsound := ht.sound.step (.finish n answer)
  rw [step_finish_of_some hn] at hsound ⊢
  have hmem := List.mem_of_getElem? hn
  have hkeeps := call.keeps_finish ht.sound.cache (ht.sound.backed call hmem) answer
  have hleft : ∀ {other}, other ∈ t.calls.eraseIdx n → other ∈ t.calls := List.mem_of_mem_eraseIdx
  refine ⟨hsound, fun other hother => ht.calls other (hleft hother), fun {key p} hcall => ?_,
    fun key => ?_⟩
  · have hp := ht.held (hleft hcall)
    rcases ht.calls call hmem with hapart | rfl | ⟨key', p', rfl⟩
    · refine hkeeps.slot_of_apart hapart (fun s hs => ?_) hp
      exact hs.elim Call.Reserves.exists_key Call.Releases.exists_key
    · refine hkeeps.slot (ht.knows (hleft hcall) _) ?_ hp
      cases answer <;> exact not_or_intro id id
    · refine hkeeps.slot (ht.knows (hleft hcall) _) ?_ hp
      have hne : Memo.slot crud.side crud.type key ≠ Memo.slot crud.side crud.type key' :=
        fun hslot => ht.key_ne hn hcall (Memo.slot_inj.mp hslot)
      cases answer <;> exact not_or_intro hne id
  · have hone := ht.once key
    rw [countP_calls hn] at hone
    exact (Nat.le_add_right _ _).trans hone

theorem Shared.step {t : Traffic α} (ht : t.Shared crud) {event : Event α}
    (hshares : event.Shares crud) : (t.step event).Shared crud := by
  cases event with
  | begin other request =>
    cases request with
    | create es => exact ht.begin_apart hshares (.create es)
    | read key =>
      rcases hshares with rfl | hapart
      · exact ht.begin_read key
      · exact ht.begin_apart hapart (.read key)
    | readAll =>
      rcases hshares with rfl | hapart
      · exact ht.begin_readAll
      · exact ht.begin_apart hapart .readAll
    | update es => exact ht.begin_apart hshares (.update es)
    | delete es => exact ht.begin_apart hshares (.delete es)
  | finish n answer =>
    cases hn : t.calls[n]? with
    | none => rwa [step_finish_of_none hn]
    | some call => exact ht.finish hn answer
  | flush side =>
    have hslot : ∀ key, (t.cache.flush side).recordAt? (Memo.slot crud.side crud.type key) =
        t.cache.recordAt? (Memo.slot crud.side crud.type key) := fun key =>
      (t.cache.recordAt?_flush side _).trans (if_neg (Ne.symm hshares))
    exact ⟨ht.sound.step _, ht.calls, fun {key p} hcall => (hslot key).trans (ht.held hcall),
      ht.once⟩
  | modify k f => exact ⟨ht.sound.step _, ht.calls, ht.held, ht.once⟩

theorem Shared.run {t : Traffic α} (ht : t.Shared crud) {events : List (Event α)}
    (hshares : t.Legal (fun _ event => event.Shares crud) events) : (t.run events).Shared crud :=
  legal_induction (fun _ _ ht hshares => ht.step hshares) ht hshares

/-- **Reads of one key share one call and one record.** From a state in which no call of a type is
under way on a side, any number of its reads and listings may begin and end in any order, with any
answers. At every moment the backend is asked at most once for each key. While it is asked for a
key, every read of the key answers with the placeholder; and if it answers with an entity of the
key, the read that asked answers with the same record, which is filled from then on. -/
theorem reads_share {t₀ : Traffic α} (hsound : t₀.Sound)
    (hidle : ∀ call ∈ t₀.calls, call.crud.Apart crud) {events : List (Event α)}
    (hevents : t₀.Legal (fun _ event => event.Shares crud) events) :
    let t := t₀.run events
    (∀ key, t.calls.countP (Call.asksFor (Memo.slot crud.side crud.type key)) ≤ 1) ∧
    ∀ key p, Call.reading crud key p ∈ t.calls →
      (∀ (n : Type → Type) [Monad n] [LawfulMonad n] (backend : Backend (StateT (Cache α) n) α),
        (crud.read backend key).run t.cache = pure (.ok (some p), t.cache)) ∧
      ∀ meanwhile, t.Legal (fun _ event => event.Shares crud) meanwhile →
        let t' := t.run meanwhile
        ∀ n, t'.calls[n]? = some (.reading crud key p) →
          ∀ found, (∃ e ∈ found, crud.keyOf e = key) →
            (crud.endRead key p (.ok found) t'.cache).1 = .ok (some p) ∧
            ∀ later, ((t'.step (.finish n (.ok found))).run later).cache.entity? p ≠ none := by
  intro t
  have ht : t.Shared crud := (shared_of_idle hsound hidle).run hevents
  refine ⟨ht.once, fun key p hcall => ⟨fun n _ _ backend => ?_, ?_⟩⟩
  · rw [crud.run_read, crud.beginRead_of_some (ht.find? hcall)]
  · intro meanwhile hmeanwhile t' n hn found hfound
    have ht' : t'.Shared crud := ht.run hmeanwhile
    have hcall' := List.mem_of_getElem? hn
    have hbacked := ht'.sound.backed _ hcall'
    have hanswer : (crud.finishRead key p found t'.cache).1 = some p :=
      Crud.fst_finishRead_of_mem ht'.sound.cache (ht'.held hcall') hbacked hfound
    refine ⟨congrArg Except.ok hanswer, fun later => ?_⟩
    refine filled_run (ht'.sound.step _) later ?_
    rw [step_finish_of_some hn]
    exact crud.entity?_finishRead found ht'.sound.cache hbacked p hanswer

/-- Two reads of one key with a listing in between, and a read of another key. -/
def mixedReads : List (Event (String × Nat)) :=
  let crud : Crud (String × Nat) := ⟨⟨"Queue", "Queue"⟩, .cloud, Prod.fst⟩
  [.begin crud (.read "k"), .begin crud .readAll, .begin crud (.read "k"), .begin crud (.read "j")]

/-- The listing ends first and fills the record of the key. The read that asked for the key still
answers with this record, as the second read did. -/
theorem reads_share_listed :
    let crud : Crud (String × Nat) := ⟨⟨"Queue", "Queue"⟩, .cloud, Prod.fst⟩
    let p : Handle := ⟨⟨"Queue", "Queue"⟩, 0⟩
    let t := (start Records.empty).run mixedReads
    let t' := t.run [.finish 1 (.ok [("k", 1), ("i", 2)])]
    t.calls.countP (Call.asksFor (Memo.slot crud.side crud.type "k")) ≤ 1 ∧
    (∀ backend : Backend (StateT (Cache (String × Nat)) Id) (String × Nat),
      (crud.read backend "k").run t.cache = pure (.ok (some p), t.cache)) ∧
    (crud.endRead "k" p (.ok [("k", 3)]) t'.cache).1 = .ok (some p) ∧
    (t'.step (.finish 1 (.ok [("k", 3)]))).cache.entity? p ≠ none := by
  intro crud p t t'
  have hidle : ∀ call ∈ (start Records.empty).calls, call.crud.Apart crud := fun call hcall => by
    cases hcall
  have hevents : (start Records.empty).Legal (fun _ event => event.Shares crud) mixedReads :=
    ⟨Or.inl rfl, Or.inl rfl, Or.inl rfl, Or.inl rfl, trivial⟩
  obtain ⟨honce, hread⟩ := reads_share (sound_start Records.empty) hidle hevents
  have hasking : Call.reading crud "k" p ∈ t.calls :=
    List.mem_cons_of_mem _ (List.mem_cons_of_mem _ List.mem_cons_self)
  obtain ⟨hknown, hends⟩ := hread "k" p hasking
  obtain ⟨hanswer, hfilled⟩ := hends [.finish 1 (.ok [("k", 1), ("i", 2)])] ⟨trivial, trivial⟩ 1
    rfl [("k", 3)] ⟨_, List.mem_cons_self, rfl⟩
  exact ⟨honce "k", hknown Id, hanswer, hfilled []⟩

end Traffic

end Reconcile
