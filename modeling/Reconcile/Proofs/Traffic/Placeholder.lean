import Reconcile.Proofs.Traffic.Basic

/-!
# Every placeholder has an owner

The read of a key parks a placeholder in the slot of the key while its backend is asked. Meanwhile
other calls may take the slot over, vacate it, or move the placeholder to another slot. Whatever
they do, a placeholder that stands in a slot, unfilled, was put there by a read of exactly that
side, kind and key, and this read is still under way (`Traffic.Owned`).

The invariant needs no case for each pair of calls. Only the start of a read puts a placeholder
into a slot and leaves it unfilled; everything else is calm (`Cache.Calm`), so a placeholder that
stands in a slot afterwards stood there before. What remains is the end of the read itself, which
does not leave its placeholder behind (`Crud.filled_of_finishRead`).

So nothing is a placeholder when no call is under way, and a read that begins then ends with
nothing or with a filled record.
-/

namespace Reconcile

open Cache

variable {α : Type}

/-- The placeholders in slots after a call has begun: those of before, and the call's own. -/
theorem Request.bare_begin {c : Cache α} (hc : c.Sound) (crud : Crud α) (request : Request α)
    {s : Slot} {h : Handle} (hs : (request.begin crud c).2.recordAt? s = some h)
    (he : (request.begin crud c).2.entity? h = none) :
    (c.recordAt? s = some h ∧ c.entity? h = none) ∨
      ∃ key, (request.begin crud c).1 = some (.reading crud key h) ∧
        s = Memo.slot crud.side crud.type key := by
  cases request with
  | create entities => exact Or.inl ((crud.calm_reserveAll entities hc).bare hs he)
  | read key =>
    cases hfound : c.memo.find? crud.side crud.type key with
    | some k =>
      rw [Request.begin_read_of_some hfound] at hs he
      exact Or.inl ⟨hs, he⟩
    | none =>
      rw [Request.begin_read_of_none hfound] at hs he ⊢
      simp only [recordAt?_reserve, entity?_reserve, record_reserve, hfound, Option.getD_none]
        at hs he
      split_ifs at hs with hslot
      · -- the slot of the key, in which the new record was put
        exact Or.inr ⟨key, by rw [Option.some.inj hs], hslot⟩
      · exact Or.inl ⟨hs, he⟩
  | readAll => exact Or.inl ⟨hs, he⟩
  | update entities => exact Or.inl ⟨hs, he⟩
  | delete entities => exact Or.inl ⟨hs, he⟩

/-- A read that ends does not leave its placeholder unfilled in the slot of its key. -/
theorem Call.filled_of_finish {c : Cache α} (hc : c.Sound) {crud : Crud α} {key : String}
    {p : Handle} (hp : c.Admits crud.type (some p)) (answer : Answer α)
    (hs : ((Call.reading crud key p).finish answer c).recordAt?
      (Memo.slot crud.side crud.type key) = some p) :
    ((Call.reading crud key p).finish answer c).entity? p ≠ none := by
  cases answer with
  | error _ =>
    change (c.evictRecord crud.side key p).recordAt? _ = some p at hs
    rw [recordAt?_evictRecord, (hp p rfl).1] at hs
    split_ifs at hs with hheld
    exact absurd ⟨rfl, hs⟩ hheld
  | ok found => exact crud.filled_of_finishRead found hc hp hs

namespace Traffic

/-- **Ownership**: a placeholder in a slot is the one reserved by a read under way, of exactly the
side, kind and key of the slot. -/
def Owned (t : Traffic α) : Prop :=
  ∀ s h, t.cache.recordAt? s = some h → t.cache.entity? h = none →
    ∃ crud key, Call.reading crud key h ∈ t.calls ∧ s = Memo.slot crud.side crud.type key

theorem Owned.step {t : Traffic α} (ht : t.Sound) (howned : t.Owned) (event : Event α) :
    (t.step event).Owned := by
  intro s h hs he
  cases event with
  | begin crud request =>
    rcases request.bare_begin ht.cache crud hs he with ⟨hs', he'⟩ | ⟨key, hcall, hslot⟩
    · obtain ⟨crud', key, hmem, hslot⟩ := howned s h hs' he'
      exact ⟨crud', key, List.mem_append_right _ hmem, hslot⟩
    · exact ⟨crud, key, List.mem_append_left _ (Option.mem_toList.mpr hcall), hslot⟩
  | finish n answer =>
    cases hn : t.calls[n]? with
    | none =>
      rw [step_finish_of_none hn] at hs he ⊢
      exact howned s h hs he
    | some call =>
      rw [step_finish_of_some hn] at hs he ⊢
      have hbacked := ht.backed call (List.mem_of_getElem? hn)
      obtain ⟨hs', he'⟩ := (Call.calm_finish ht.cache hbacked answer).bare hs he
      obtain ⟨crud, key, hmem, hslot⟩ := howned s h hs' he'
      refine ⟨crud, key, ?_, hslot⟩
      -- the owner is still under way, since it is not the call that ends
      rcases List.mem_cons.mp ((perm_eraseIdx hn).mem_iff.mpr hmem) with hends | hmem
      · subst hends
        rw [hslot] at hs
        exact absurd he (Call.filled_of_finish ht.cache hbacked answer hs)
      · exact hmem
  | flush side =>
    obtain ⟨hs', he'⟩ := (calm_flush ht.cache side).bare hs he
    exact howned s h hs' he'
  | modify k f =>
    obtain ⟨hs', he'⟩ := (calm_modify ht.cache k f).bare hs he
    exact howned s h hs' he'

theorem owned_run (records : Records α) (events : List (Event α)) :
    ((start records).run events).Owned := by
  have hstart : (start records).Sound ∧ (start records).Owned :=
    ⟨sound_start records, fun s h hs => by simp [recordAt?, start, Memo.empty] at hs⟩
  exact (run_induction (P := fun t => t.Sound ∧ t.Owned)
    (fun t event ht => ⟨ht.1.step event, ht.2.step ht.1 event⟩) hstart events).2

/-- Without calls under way there is no owner, and no placeholder in a slot. -/
theorem Owned.filled {t : Traffic α} (howned : t.Owned) (hidle : t.calls = []) {s : Slot}
    {h : Handle} (hs : t.cache.recordAt? s = some h) : t.cache.entity? h ≠ none := by
  intro he
  obtain ⟨crud, key, hmem, -⟩ := howned s h hs he
  rw [hidle] at hmem
  exact absurd hmem List.not_mem_nil

/-- The read of a key, from its beginning at `t` to its end: the answer, and the state in which it
is given. While the backend is asked, any other calls may begin and end. -/
inductive ReadEnds (crud : Crud α) (key : String) (t : Traffic α) :
    Option Handle → Traffic α → Prop
  /-- The memo answers. -/
  | known {h : Handle} {c : Cache α} (hbegin : crud.beginRead key t.cache = (.known h, c)) :
      ReadEnds crud key t (some h) (t.step (.begin crud (.read key)))
  /-- The backend answers. -/
  | asked {p : Handle} {c : Cache α} (hbegin : crud.beginRead key t.cache = (.asked p, c))
      {events : List (Event α)} {t' : Traffic α}
      (hmeanwhile : (t.step (.begin crud (.read key))).run events = t') {n : Nat}
      (hunder : t'.calls[n]? = some (.reading crud key p)) (found : List α) :
      ReadEnds crud key t (crud.finishRead key p found t'.cache).1 (t'.step (.finish n (.ok found)))

/-- A read that begins where no placeholder stands in a slot ends with nothing or with a filled
record. -/
theorem ReadEnds.filled {crud : Crud α} {key : String} {t t' : Traffic α} {answer : Option Handle}
    (hread : t.ReadEnds crud key answer t') (ht : t.Sound)
    (hfilled : ∀ s h, t.cache.recordAt? s = some h → t.cache.entity? h ≠ none) :
    ∀ h ∈ answer, t'.cache.entity? h ≠ none := by
  cases hread with
  | @known h c hbegin =>
    intro k hk
    cases hk
    cases hfound : t.cache.memo.find? crud.side crud.type key with
    | none =>
      rw [crud.beginRead_of_none hfound] at hbegin
      cases hbegin
    | some r =>
      rw [crud.beginRead_of_some hfound] at hbegin
      cases hbegin
      have hunchanged : (t.step (.begin crud (.read key))).cache = t.cache := by
        simp only [step, Request.begin_read_of_some hfound]
      rw [hunchanged]
      exact hfilled _ h (find?_eq_some.mp hfound).1
  | @asked p c hbegin events t' hmeanwhile n hunder found =>
    -- whatever happened meanwhile, the placeholder still exists when the answer comes
    have ht' : t'.Sound := hmeanwhile ▸ run_induction (fun _ event ht => ht.step event)
      (ht.step (.begin crud (.read key))) events
    have hp := ht'.backed _ (List.mem_of_getElem? hunder)
    rw [step_finish_of_some hunder]
    exact crud.entity?_finishRead found ht'.cache hp

/-- **Every placeholder has an owner.** Whatever calls have begun and ended on a context, in any
order, a slot that holds a placeholder holds the very record that was reserved by a read of exactly
that side, kind and key which is still under way. So no slot holds a placeholder when no call is
under way, and a read that begins then, however it runs, answers with nothing or with a filled
record. -/
theorem placeholder_owned (records : Records α) (events : List (Event α)) :
    let t := (start records).run events
    (∀ s h, t.cache.recordAt? s = some h → t.cache.entity? h = none →
      ∃ crud key, Call.reading crud key h ∈ t.calls ∧ s = Memo.slot crud.side crud.type key) ∧
    (t.calls = [] →
      (∀ s h, t.cache.recordAt? s = some h → t.cache.entity? h ≠ none) ∧
      ∀ crud key answer t', t.ReadEnds crud key answer t' →
        ∀ h ∈ answer, t'.cache.entity? h ≠ none) := by
  intro t
  have howned := owned_run records events
  refine ⟨howned, fun hidle => ?_⟩
  have hfilled : ∀ s h, t.cache.recordAt? s = some h → t.cache.entity? h ≠ none :=
    fun _ _ hs => howned.filled hidle hs
  exact ⟨hfilled, fun crud key answer t' hread => hread.filled (sound_run records events) hfilled⟩

/-- A read whose slot is flushed while its backend is asked, a second read of the same key, and the
end of the first one. -/
def overlappingReads : List (Event (String × Nat)) :=
  let crud : Crud (String × Nat) := ⟨⟨"Queue", "Queue"⟩, .cloud, Prod.fst⟩
  [.begin crud (.read "k"), .flush .cloud, .begin crud (.read "k"), .finish 1 (.ok [])]

/-- The slot holds the placeholder of the second read, which is still under way, and is vacant once
that has ended without an answer. -/
theorem placeholder_owned_overlap :
    let s : Slot := ⟨.cloud, "Queue", "k"⟩
    let h : Handle := ⟨⟨"Queue", "Queue"⟩, 1⟩
    let t := (start Records.empty).run overlappingReads
    let t' := (start Records.empty).run (overlappingReads ++ [.finish 0 (.ok [])])
    t.cache.recordAt? s = some h ∧ t.cache.entity? h = none ∧
    (∃ crud key, Call.reading crud key h ∈ t.calls ∧ s = Memo.slot crud.side crud.type key) ∧
    t'.calls = [] ∧ ∀ s h, t'.cache.recordAt? s = some h → t'.cache.entity? h ≠ none := by
  intro s h t t'
  have hslot : t.cache.recordAt? s = some h := by decide
  have hbare : t.cache.entity? h = none := by decide
  have hidle : t'.calls = [] := by rfl
  have howned := (placeholder_owned Records.empty overlappingReads).1 s h hslot hbare
  have hfilled :=
    (placeholder_owned Records.empty (overlappingReads ++ [.finish 0 (.ok [])])).2 hidle
  exact ⟨hslot, hbare, howned, hidle, hfilled.1⟩

end Traffic

end Reconcile
