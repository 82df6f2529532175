import Reconcile.Proofs.Traffic.Sharing

/-!
# Records that are never filled

A read that finds a placeholder under its key answers with it at once: the read that reserved it is
still under way and is expected to fill it. But that read fills it only if its backend finds an
entity of the key. If it finds none, or fails, it takes the placeholder out of its slot and answers
with nothing, and the placeholder stays empty in the hands of those who have it
(`Traffic.absent_read_unfilled`).

Here it is said for every history of reads which of them answer with a record that is empty when all
are over: exactly those that answer with the placeholder of a read under way, into which no read
brings an entity from then on (`Traffic.unfilled_iff`). To see this, one has to know at every moment
which records a read may fill. A placeholder is in no slot but the one that it was reserved in, and
no call but the one that reserved it will put it into a slot (`Traffic.Lodged`). So an entity comes
into it only if it is of the key, and only while the placeholder is in the slot or is put back there
by its own read (`Traffic.Brings`).
-/

namespace Reconcile

open Cache

variable {α : Type} {s : Slot} {h p : Handle} {key : String}

/-! ### Where a placeholder may be -/

namespace Cache

variable {c : Cache α}

/-- The record is in no slot but the given one. -/
def Home (s : Slot) (h : Handle) (c : Cache α) : Prop :=
  ∀ s' k, c.recordAt? s' = some k → k.place = h.place → s' = s ∧ k = h

theorem Home.of_vacated {c' : Cache α} (hhome : c.Home s h)
    (hsub : ∀ {s' k}, c'.recordAt? s' = some k → c.recordAt? s' = some k) : c'.Home s h :=
  fun s' k hs => hhome s' k (hsub hs)

theorem Home.evictRecord (hhome : c.Home s h) (side : Side) (key : String) (k : Handle) :
    (c.evictRecord side key k).Home s h :=
  hhome.of_vacated fun hs => by
    rw [recordAt?_evictRecord] at hs
    split_ifs at hs
    exact hs

/-- A new record is not the given one. -/
theorem Has.place_ne (hhas : c.Has h) (type : EntityType) : (c.nextRecord type).place ≠ h.place :=
  (Nat.ne_of_lt hhas).symm

theorem Home.reserve {side : Side} {type : EntityType} (hhome : c.Home s h) (hhas : c.Has h)
    (hnone : c.memo.find? side type key = none) :
    (c.reserve side type key).2.Home s h := by
  intro s' k hs hplace
  rw [recordAt?_reserve, record_reserve, hnone, Option.getD_none] at hs
  split_ifs at hs
  · cases hs
    exact absurd hplace (hhas.place_ne type)
  · exact hhome s' k hs hplace

end Cache

namespace Crud

variable {crud : Crud α} {c : Cache α}

/-- The candidate for an entity that a read has found. -/
def candidate (key : String) (p : Handle) (found : String) : Option Handle :=
  if found = key then some p else none

theorem admits_candidate (hp : c.Admits crud.type (some p)) (key found : String) :
    c.Admits crud.type (candidate key p found) := by
  unfold candidate
  split_ifs
  · exact hp
  · exact admits_none crud.type

/-- Whatever was seen before, the first entity is merged under its key, and then the others. -/
theorem exists_sight_cons (key : String) (p : Handle) (e : α) (es : List α) (seen : Sighting)
    (c : Cache α) : ∃ seen', (crud.sight key p (e :: es) seen c).2 = (crud.sight key p es seen'
      (c.mergeInto crud.side crud.type (crud.keyOf e) (candidate key p (crud.keyOf e)) e).2).2 := by
  rw [sight, candidate]
  split_ifs with hkey
  · rw [hkey]
    exact ⟨_, rfl⟩
  · exact ⟨_, rfl⟩

/-- The record that a read merges an entity into. -/
theorem fst_merge_candidate (key : String) (p : Handle) (e : α) (c : Cache α) :
    (c.mergeInto crud.side crud.type (crud.keyOf e) (candidate key p (crud.keyOf e)) e).1 =
      (c.memo.find? crud.side crud.type (crud.keyOf e)).getD
        (if crud.keyOf e = key then p else c.nextRecord crud.type) := by
  rw [fst_mergeInto, candidate]
  split_ifs <;> rfl

/-- A record that is only in its slot, and that is no read's placeholder but that of a read of this
slot, can only be merged into as itself. -/
theorem merged_eq_of_place (hhas : c.Has h) (hhome : c.Home s h)
    (howner : p.place = h.place → Memo.slot crud.side crud.type key = s ∧ p = h) {e : α}
    (hplace : (c.mergeInto crud.side crud.type (crud.keyOf e) (candidate key p (crud.keyOf e))
      e).1.place = h.place) :
    (c.mergeInto crud.side crud.type (crud.keyOf e) (candidate key p (crud.keyOf e)) e).1 = h := by
  rw [fst_merge_candidate] at hplace ⊢
  cases hfound : c.memo.find? crud.side crud.type (crud.keyOf e) with
  | some k =>
    rw [hfound] at hplace
    exact (hhome _ k (find?_eq_some.mp hfound).1 hplace).2
  | none =>
    rw [hfound, Option.getD_none] at hplace
    rw [Option.getD_none]
    split_ifs at hplace ⊢ with hkey
    · exact (howner hplace).2
    · exact absurd hplace (hhas.place_ne crud.type)

/-- A found entity is merged into such a record exactly if it is of the slot, and the record is in
the slot or is the read's own placeholder while nothing is found in the slot. -/
theorem merged_eq_iff (hhas : c.Has h) (hhome : c.Home s h)
    (howner : p.place = h.place → Memo.slot crud.side crud.type key = s ∧ p = h) (e : α) :
    (c.mergeInto crud.side crud.type (crud.keyOf e) (candidate key p (crud.keyOf e)) e).1 = h ↔
      Memo.slot crud.side crud.type (crud.keyOf e) = s ∧
        (c.memo.find? crud.side crud.type (crud.keyOf e)).getD p = h := by
  rw [fst_merge_candidate]
  cases hfound : c.memo.find? crud.side crud.type (crud.keyOf e) with
  | some k =>
    refine ⟨fun heq => ⟨?_, heq⟩, And.right⟩
    exact (hhome _ k (find?_eq_some.mp hfound).1 (congrArg Handle.place heq)).1
  | none =>
    simp only [Option.getD_none]
    split_ifs with hkey
    · rw [hkey]
      exact ⟨fun heq => ⟨(howner (congrArg Handle.place heq)).1, heq⟩, And.right⟩
    · refine ⟨fun heq => absurd (congrArg Handle.place heq) (hhas.place_ne crud.type), ?_⟩
      rintro ⟨hslot, rfl⟩
      exact absurd (Memo.slot_inj.mp (hslot.trans (howner rfl).1.symm)) hkey

/-- What a read finds is merged without moving such a record to another slot, and an entity comes
into it only if that could be said before anything was merged. -/
theorem home_sight (found : List α) (seen : Sighting) (hc : c.Sound)
    (hp : c.Admits crud.type (some p)) (hhas : c.Has h) (hhome : c.Home s h)
    (howner : p.place = h.place → Memo.slot crud.side crud.type key = s ∧ p = h) :
    (crud.sight key p found seen c).2.Home s h ∧
      ((crud.sight key p found seen c).2.entity? h = none ↔ c.entity? h = none ∧
        ∀ e ∈ found, Memo.slot crud.side crud.type (crud.keyOf e) = s →
          (c.memo.find? crud.side crud.type (crud.keyOf e)).getD p ≠ h) := by
  induction found generalizing seen c with
  | nil => exact ⟨hhome, by simp [sight]⟩
  | cons e es ih =>
    obtain ⟨seen', hsight⟩ := crud.exists_sight_cons key p e es seen c
    have hcand := admits_candidate hp key (crud.keyOf e)
    have hcalm := calm_mergeInto hc crud.side (crud.keyOf e) hcand e
    have hmerged := merged_eq_of_place hhas hhome howner (e := e)
    have hmerged_iff := merged_eq_iff hhas hhome howner e
    have hslots := recordAt?_mergeInto crud.side crud.type (crud.keyOf e) e hcand
    have hfind := find?_mergeInto crud.side crud.type (crud.keyOf e) e hcand
    have hentity := entity?_mergeInto crud.side crud.type (crud.keyOf e) e hc hcand h
    rw [hsight]
    generalize c.mergeInto crud.side crud.type (crud.keyOf e) (candidate key p (crud.keyOf e)) e =
      merged at *
    obtain ⟨m, c'⟩ := merged
    simp only at *
    have hhome' : c'.Home s h := by
      intro s' k hs hplace
      rw [hslots] at hs
      split_ifs at hs with hslot
      · cases hs
        obtain rfl := hmerged hplace
        exact ⟨hslot.trans (hmerged_iff.mp rfl).1, rfl⟩
      · exact hhome s' k hs hplace
    obtain ⟨hhome'', hempty⟩ := ih seen' hcalm.sound (hp.mono hcalm) (hcalm.has hhas) hhome'
    refine ⟨hhome'', hempty.trans ?_⟩
    rw [List.forall_mem_cons, hentity]
    by_cases hm : m = h
    · -- this entity comes into the record, now and as said before
      subst hm
      obtain ⟨hslot, hfound⟩ := hmerged_iff.mp rfl
      simp [hslot, hfound]
    · have hplace : h.place ≠ m.place := fun heq => hm (hmerged heq.symm)
      rw [if_neg hplace]
      refine and_congr_right fun _ => ?_
      have hfirst : Memo.slot crud.side crud.type (crud.keyOf e) = s →
          (c.memo.find? crud.side crud.type (crud.keyOf e)).getD p ≠ h :=
        fun hslot hfound => hm (hmerged_iff.mpr ⟨hslot, hfound⟩)
      rw [and_iff_right hfirst]
      refine forall₂_congr fun e' _ => forall_congr' fun hslot => ?_
      rw [hfind]
      split_ifs with hkey
      · rw [hkey] at hslot ⊢
        exact iff_of_true hm (hfirst hslot)
      · rfl

theorem home_finishRead (found : List α) (hc : c.Sound) (hp : c.Admits crud.type (some p))
    (hhas : c.Has h) (hhome : c.Home s h)
    (howner : p.place = h.place → Memo.slot crud.side crud.type key = s ∧ p = h) :
    (crud.finishRead key p found c).2.Home s h ∧
      ((crud.finishRead key p found c).2.entity? h = none ↔ c.entity? h = none ∧
        ∀ e ∈ found, Memo.slot crud.side crud.type (crud.keyOf e) = s →
          (c.memo.find? crud.side crud.type (crud.keyOf e)).getD p ≠ h) := by
  obtain ⟨hsight, hempty⟩ := home_sight found ⟨none, none⟩ hc hp hhas hhome howner
  unfold finishRead
  simp only
  split
  · exact ⟨hsight, hempty⟩
  · exact ⟨hsight.evictRecord crud.side key p, hempty⟩

end Crud

/-- The event is the beginning of the read of a key, or the end of a call. -/
inductive Event.IsRead : Event α → Prop
  | begin (crud : Crud α) (key : String) : IsRead (.begin crud (.read key))
  | finish (n : Nat) (answer : Answer α) : IsRead (.finish n answer)

namespace Traffic

variable {t : Traffic α}

/-- With this event a read brings an entity of the slot into the record: the record is in the slot,
or it is the read's own placeholder and nothing is found in the slot. -/
def Brings (s : Slot) (h : Handle) (t : Traffic α) : Event α → Prop
  | .finish n (.ok found) => ∃ crud key p, t.calls[n]? = some (.reading crud key p) ∧
      ∃ e ∈ found, Memo.slot crud.side crud.type (crud.keyOf e) = s ∧
        (t.cache.memo.find? crud.side crud.type (crud.keyOf e)).getD p = h
  | _ => False

/-- The record exists. It is in no slot but the given one, and no call would put it into another
slot. -/
structure Lodged (s : Slot) (h : Handle) (t : Traffic α) : Prop where
  has : t.cache.Has h
  home : t.cache.Home s h
  stakes : ∀ x ∈ t.stakes, x.2.place = h.place → x = (s, h)

/-- All calls under way are reads, and the placeholder of each is lodged in the slot of its key. -/
structure Reading (t : Traffic α) : Prop where
  sound : t.Sound
  reads : ∀ call ∈ t.calls, ∃ crud key p, call = .reading crud key p
  lodged : ∀ x ∈ t.stakes, t.Lodged x.1 x.2

theorem mem_stakes {crud : Crud α} (hcall : .reading crud key p ∈ t.calls) :
    (Memo.slot crud.side crud.type key, p) ∈ t.stakes :=
  List.mem_flatMap.mpr ⟨_, hcall, List.mem_singleton_self _⟩

theorem Reading.of_idle (ht : t.Sound) (hidle : t.calls = []) : t.Reading where
  sound := ht
  reads call hcall := absurd (hidle ▸ hcall) List.not_mem_nil
  lodged x hx := by simp [stakes, hidle] at hx

/-! ### What one event does -/

/-- A read that the memo answers changes nothing. -/
theorem step_begin_read_of_some {crud : Crud α}
    (hfound : t.cache.memo.find? crud.side crud.type key = some h) :
    t.step (.begin crud (.read key)) = t := by
  simp only [step, Request.begin_read_of_some hfound, Option.toList_none, List.nil_append]

theorem mem_calls_of_finish {n : Nat} {answer : Answer α} {call : Call α}
    (hcall : call ∈ (t.step (.finish n answer)).calls) : call ∈ t.calls := by
  cases hn : t.calls[n]? with
  | none => rwa [step_finish_of_none hn] at hcall
  | some _ =>
    rw [step_finish_of_some hn] at hcall
    exact List.mem_of_mem_eraseIdx hcall

/-- The end of a call adds no stake. -/
theorem mem_stakes_of_finish {n : Nat} {answer : Answer α} {x : Stake}
    (hx : x ∈ (t.step (.finish n answer)).stakes) : x ∈ t.stakes := by
  obtain ⟨call, hcall, hx⟩ := List.mem_flatMap.mp hx
  exact List.mem_flatMap.mpr ⟨call, mem_calls_of_finish hcall, hx⟩

/-- A read that begins has a placeholder of its own, and gives no record an entity. -/
theorem Lodged.begin (hlodged : t.Lodged s h) (crud : Crud α) (key : String) :
    (t.step (.begin crud (.read key))).Lodged s h ∧
      (t.step (.begin crud (.read key))).cache.entity? h = t.cache.entity? h := by
  cases hfound : t.cache.memo.find? crud.side crud.type key with
  | some k =>
    rw [step_begin_read_of_some hfound]
    exact ⟨hlodged, rfl⟩
  | none =>
    simp only [step, Request.begin_read_of_none hfound, entity?_reserve, and_true]
    refine ⟨hlodged.has.reserve _ _ _, hlodged.home.reserve hlodged.has hfound, ?_⟩
    refine List.forall_mem_cons.mpr ⟨fun hplace => ?_, hlodged.stakes⟩
    exact absurd hplace (hlodged.has.place_ne crud.type)

theorem Lodged.finish (ht : t.Reading) (hlodged : t.Lodged s h) (n : Nat) (answer : Answer α) :
    (t.step (.finish n answer)).Lodged s h ∧
      ((t.step (.finish n answer)).cache.entity? h = none ↔
        t.cache.entity? h = none ∧ ¬ t.Brings s h (.finish n answer)) := by
  have hstakes : ∀ x ∈ (t.step (.finish n answer)).stakes, x.2.place = h.place → x = (s, h) :=
    fun x hx => hlodged.stakes x (mem_stakes_of_finish hx)
  cases hn : t.calls[n]? with
  | none =>
    rw [step_finish_of_none hn]
    have hno : ¬ t.Brings s h (.finish n answer) := by
      cases answer <;> simp [Brings, hn]
    exact ⟨hlodged, by simp [hno]⟩
  | some call =>
    rw [step_finish_of_some hn] at hstakes ⊢
    have hmem := List.mem_of_getElem? hn
    obtain ⟨crud, key, p, rfl⟩ := ht.reads call hmem
    have hp := ht.sound.backed _ hmem
    have howner : p.place = h.place → Memo.slot crud.side crud.type key = s ∧ p = h :=
      fun hplace => Prod.mk.inj (hlodged.stakes _ (mem_stakes hmem) hplace)
    cases answer with
    | error cause =>
      have hhas : (t.cache.evictRecord crud.side key p).Has h := hlodged.has
      refine ⟨⟨hhas, hlodged.home.evictRecord crud.side key p, hstakes⟩, ?_⟩
      change (t.cache.evictRecord crud.side key p).entity? h = none ↔ _
      simp [Brings]
    | ok found =>
      have hcalm : Calm t.cache (crud.finishRead key p found t.cache).2 :=
        crud.calm_finishRead found ht.sound.cache hp
      obtain ⟨hhome, hempty⟩ :=
        crud.home_finishRead found ht.sound.cache hp hlodged.has hlodged.home howner
      refine ⟨⟨hcalm.has hlodged.has, hhome, hstakes⟩, ?_⟩
      refine hempty.trans (and_congr_right fun _ => ?_)
      constructor
      · rintro hnone ⟨crud', key', p', hcall, e, he, hslot, hfound⟩
        obtain ⟨rfl, rfl, rfl⟩ : crud = crud' ∧ key = key' ∧ p = p' := by
          simpa using hn.symm.trans hcall
        exact hnone e he hslot hfound
      · intro hno e he hslot hfound
        exact hno ⟨crud, key, p, hn, e, he, hslot, hfound⟩

/-- **One event of a read** leaves a record lodged, and an empty record stays empty exactly if the
event brings no entity into it. -/
theorem Lodged.step (ht : t.Reading) (hlodged : t.Lodged s h) {event : Event α}
    (hread : event.IsRead) : (t.step event).Lodged s h ∧
      ((t.step event).cache.entity? h = none ↔
        t.cache.entity? h = none ∧ ¬ t.Brings s h event) := by
  cases hread with
  | begin crud key =>
    obtain ⟨hnext, hsame⟩ := hlodged.begin crud key
    exact ⟨hnext, by simp [hsame, Brings]⟩
  | finish n answer => exact hlodged.finish ht n answer

/-- A new placeholder is lodged in the slot that it was put into. -/
theorem Reading.begin (ht : t.Reading) (crud : Crud α) (key : String) :
    (t.step (.begin crud (.read key))).Reading := by
  have hsound := ht.sound.step (.begin crud (.read key))
  have hold : ∀ x ∈ t.stakes, (t.step (.begin crud (.read key))).Lodged x.1 x.2 := fun x hx =>
    ((ht.lodged x hx).begin crud key).1
  cases hfound : t.cache.memo.find? crud.side crud.type key with
  | some k =>
    rw [step_begin_read_of_some hfound]
    exact ht
  | none =>
    have hnew := ht.sound.cache.has_reserved crud.side crud.type key
    rw [record_reserve, hfound, Option.getD_none] at hnew
    simp only [step, Request.begin_read_of_none hfound] at hsound hold ⊢
    refine ⟨hsound, ?_, ?_⟩
    · exact List.forall_mem_cons.mpr ⟨⟨crud, key, _, rfl⟩, ht.reads⟩
    · refine List.forall_mem_cons.mpr ⟨⟨hnew, fun s k hs hplace => ?_, ?_⟩, hold⟩
      · rw [recordAt?_reserve, record_reserve, hfound, Option.getD_none] at hs
        split_ifs at hs with hslot
        · cases hs
          exact ⟨hslot, rfl⟩
        · exact absurd hplace.symm ((ht.sound.cache.has hs).place_ne crud.type)
      · refine List.forall_mem_cons.mpr ⟨fun _ => rfl, fun x hx hplace => ?_⟩
        exact absurd hplace.symm ((ht.lodged x hx).has.place_ne crud.type)

theorem Reading.step (ht : t.Reading) {event : Event α} (hread : event.IsRead) :
    (t.step event).Reading := by
  cases hread with
  | begin crud key => exact ht.begin crud key
  | finish n answer =>
    exact ⟨ht.sound.step _, fun call hcall => ht.reads call (mem_calls_of_finish hcall),
      fun x hx => ((ht.lodged x (mem_stakes_of_finish hx)).finish ht n answer).1⟩

/-! ### Whole histories -/

theorem Reading.run (ht : t.Reading) {events : List (Event α)}
    (hreads : ∀ event ∈ events, event.IsRead) : (t.run events).Reading := by
  induction events generalizing t with
  | nil => exact ht
  | cons event events ih =>
    obtain ⟨hread, hreads⟩ := List.forall_mem_cons.mp hreads
    exact ih (ht.step hread) hreads

/-- **A history of reads** leaves an empty record empty exactly if none of its events brings an
entity into it. -/
theorem Lodged.run (ht : t.Reading) (hlodged : t.Lodged s h) {events : List (Event α)}
    (hreads : ∀ event ∈ events, event.IsRead) :
    (t.run events).cache.entity? h = none ↔
      t.cache.entity? h = none ∧ t.Legal (fun t event => ¬ t.Brings s h event) events := by
  induction events generalizing t with
  | nil => exact ⟨fun he => ⟨he, trivial⟩, And.left⟩
  | cons event events ih =>
    obtain ⟨hread, hreads⟩ := List.forall_mem_cons.mp hreads
    obtain ⟨hnext, hempty⟩ := hlodged.step ht hread
    rw [run_cons, ih (ht.step hread) hnext hreads, hempty, and_assoc]
    rfl

/-- With this event a read answers with the record. -/
def Answers (h : Handle) (t : Traffic α) : Event α → Prop
  | .begin crud (.read key) => (crud.beginRead key t.cache).1 = .known h
  | .finish n (.ok found) => ∃ crud key p, t.calls[n]? = some (.reading crud key p) ∧
      (crud.finishRead key p found t.cache).1 = some h
  | _ => False

/-- A read that was asked answers with a filled record. -/
theorem filled_of_answers (ht : t.Sound) {n : Nat} {answer : Answer α}
    (hanswers : t.Answers h (.finish n answer)) :
    (t.step (.finish n answer)).cache.entity? h ≠ none := by
  cases answer with
  | error cause => exact hanswers.elim
  | ok found =>
    obtain ⟨crud, key, p, hn, hh⟩ := hanswers
    rw [step_finish_of_some hn]
    have hp := ht.backed _ (List.mem_of_getElem? hn)
    exact crud.entity?_finishRead found ht.cache hp h hh

/-- An empty record with which the memo answers is the placeholder of a read of the same key. -/
theorem exists_outer (ht : t.Sound) (howned : t.Owned) {crud : Crud α}
    (hfound : t.cache.memo.find? crud.side crud.type key = some h) (he : t.cache.entity? h = none) :
    ∃ outer, .reading outer key h ∈ t.calls ∧ outer.side = crud.side ∧ outer.type = crud.type := by
  obtain ⟨hs, htype⟩ := find?_eq_some.mp hfound
  obtain ⟨outer, key', hcall, hslot⟩ := howned _ h hs he
  have htype' : h.type = outer.type := (ht.backed _ hcall h rfl).1
  obtain ⟨hside, -, rfl⟩ := Slot.mk.inj hslot
  exact ⟨outer, hcall, hside.symm, htype'.symm.trans htype⟩

/-- A read that the memo answers is over at once, and what happens to the record afterwards is up to
the other reads. -/
theorem unfilled_iff_of_known (ht : t.Reading) (howned : t.Owned) {crud : Crud α}
    (hknown : (crud.beginRead key t.cache).1 = .known h) {after : List (Event α)}
    (hreads : ∀ event ∈ after, event.IsRead) :
    (t.run (.begin crud (.read key) :: after)).cache.entity? h = none ↔
      (∃ outer, .reading outer key h ∈ t.calls ∧ outer.side = crud.side ∧
        outer.type = crud.type) ∧
      t.cache.entity? h = none ∧
      t.Legal (fun t x => ¬ t.Brings (Memo.slot crud.side crud.type key) h x) after := by
  have hfound : t.cache.memo.find? crud.side crud.type key = some h := by
    cases hfound : t.cache.memo.find? crud.side crud.type key with
    | none =>
      rw [crud.beginRead_of_none hfound] at hknown
      cases hknown
    | some k =>
      rw [crud.beginRead_of_some hfound] at hknown
      cases hknown
      rfl
  rw [run_cons, step_begin_read_of_some hfound]
  by_cases he : t.cache.entity? h = none
  · obtain ⟨outer, hcall, hside, htype⟩ := exists_outer ht.sound howned hfound he
    have hlodged := ht.lodged _ (mem_stakes hcall)
    rw [hside, htype] at hlodged
    rw [hlodged.run ht hreads]
    exact (and_iff_right ⟨outer, hcall, hside, htype⟩).symm
  · exact iff_of_false (filled_run ht.sound after he) fun h => he h.2.1

/-- **Who is left with an empty record**: on a context on which no call is under way, let any reads
begin and end in any order, with any answers and inside each other. The record with which one of
them answers is empty in the end exactly if it was the placeholder of a read of the same key that
was still under way, and no read brings an entity of the key into it from then on. -/
theorem unfilled_iff (records : Records α) {earlier before after : List (Event α)}
    (hidle : ((start records).run earlier).calls = []) {event : Event α}
    (hreads : ∀ x ∈ before ++ event :: after, x.IsRead)
    (hanswers : (((start records).run earlier).run before).Answers h event) :
    let t := ((start records).run earlier).run before
    (t.run (event :: after)).cache.entity? h = none ↔
      ∃ crud key, event = .begin crud (.read key) ∧
        (∃ outer, .reading outer key h ∈ t.calls ∧ outer.side = crud.side ∧
          outer.type = crud.type) ∧
        t.cache.entity? h = none ∧
        t.Legal (fun t x => ¬ t.Brings (Memo.slot crud.side crud.type key) h x) after := by
  intro t
  have ht : t.Reading := (Reading.of_idle (sound_run records earlier) hidle).run fun x hx =>
    hreads x (List.mem_append_left _ hx)
  have howned : t.Owned := by
    have howned := owned_run records (earlier ++ before)
    rwa [run_append] at howned
  have hafter : ∀ x ∈ after, x.IsRead := fun x hx =>
    hreads x (List.mem_append_right _ (List.mem_cons_of_mem event hx))
  cases hreads event (List.mem_append_right _ List.mem_cons_self) with
  | begin crud key =>
    rw [unfilled_iff_of_known ht howned hanswers hafter]
    constructor
    · intro hempty
      exact ⟨crud, key, rfl, hempty⟩
    · rintro ⟨crud', key', hevent, hempty⟩
      cases hevent
      exact hempty
  | finish n answer =>
    have hfilled := filled_of_answers ht.sound hanswers
    refine iff_of_false (filled_run (ht.sound.step _) after hfilled) ?_
    rintro ⟨crud, key, hevent, -⟩
    cases hevent

/-- A read that is joined by another read of its key, and then fails. Meanwhile a read of another
key ends, with what it has found. -/
def joinedReads (found : List (String × Nat)) : List (Event (String × Nat)) :=
  let crud : Crud (String × Nat) := ⟨⟨"Queue", "Queue"⟩, .cloud, Prod.fst⟩
  [.begin crud (.read "j"), .begin crud (.read "k"), .begin crud (.read "k"),
    .finish 1 (.ok found), .finish 0 (.error "timeout")]

/-- The read of the other key finds an entity of the key as well. So the read that joined has a
filled record, although the one that it joined has failed. -/
theorem unfilled_iff_joined :
    let crud : Crud (String × Nat) := ⟨⟨"Queue", "Queue"⟩, .cloud, Prod.fst⟩
    let h : Handle := ⟨⟨"Queue", "Queue"⟩, 1⟩
    let t := (start Records.empty).run ((joinedReads [("j", 1), ("k", 2)]).take 2)
    let after := (joinedReads [("j", 1), ("k", 2)]).drop 3
    t.Answers h (.begin crud (.read "k")) ∧ t.cache.entity? h = none ∧
    (t.run (.begin crud (.read "k") :: after)).calls.length = 0 ∧
    (t.run (.begin crud (.read "k") :: after)).cache.entity? h = some ("k", 2) ∧
    ¬ t.Legal (fun t x => ¬ t.Brings (Memo.slot crud.side crud.type "k") h x) after := by
  intro crud h t after
  have hanswers : t.Answers h (.begin crud (.read "k")) := by rfl
  have hbare : t.cache.entity? h = none := by rfl
  have hfilled : (t.run (.begin crud (.read "k") :: after)).cache.entity? h = some ("k", 2) := by
    rfl
  have hreads : ∀ x ∈ (joinedReads [("j", 1), ("k", 2)]).take 2 ++
      .begin crud (.read "k") :: after, x.IsRead :=
    List.forall_mem_cons.mpr ⟨.begin crud "j", List.forall_mem_cons.mpr ⟨.begin crud "k",
      List.forall_mem_cons.mpr ⟨.begin crud "k", List.forall_mem_cons.mpr ⟨.finish 1 _,
        List.forall_mem_cons.mpr ⟨.finish 0 _, nofun⟩⟩⟩⟩⟩
  refine ⟨hanswers, hbare, by rfl, hfilled, fun hlegal => ?_⟩
  have hidle : ((start (Records.empty : Records (String × Nat))).run []).calls = [] := rfl
  have hempty := (unfilled_iff Records.empty hidle hreads hanswers).mpr
    ⟨crud, "k", rfl, ⟨crud, List.mem_cons_self, rfl, rfl⟩, hbare, hlegal⟩
  cases hfilled.symm.trans hempty

/-- Two reads of a key under which there is nothing. The second one begins while the first one asks
its backend. -/
def absentReads : List (Event (String × Nat)) :=
  let crud : Crud (String × Nat) := ⟨⟨"Queue", "Queue"⟩, .cloud, Prod.fst⟩
  [.begin crud (.read "k"), .begin crud (.read "k"), .finish 0 (.ok [])]

/-- The two reads disagree. The first one answers with nothing, and the second one with a record
that is empty when both are over. -/
theorem absent_read_unfilled :
    let crud : Crud (String × Nat) := ⟨⟨"Queue", "Queue"⟩, .cloud, Prod.fst⟩
    let h : Handle := ⟨⟨"Queue", "Queue"⟩, 0⟩
    let t := (start Records.empty).run (absentReads.take 1)
    let t' := (start Records.empty).run absentReads
    (crud.beginRead "k" t.cache).1 = .known h ∧
    (crud.finishRead "k" h [] t.cache).1 = none ∧
    t'.calls.length = 0 ∧ t'.cache.entity? h = none := by
  decide

end Traffic

end Reconcile
