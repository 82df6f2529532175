import Reconcile.Proofs.Cache.Found
import Reconcile.Proofs.Crud.Run
import Reconcile.Proofs.Traffic.Basic

/-!
# The memo is transparent

A backend is *faithful* to a content if it is a map from keys to entities, seen through its calls:
reading a key finds what the content has under it, listing finds all there is, creating and updating
store the entities that they answer with, deleting deletes, and a call that fails changes nothing
(`Backend.Faithful`). Its state is its own. Nobody reads or changes it but the calls on one side of
an entity type, on one cache.

Then the cache mirrors the content after any sequence of calls, successful or not
(`Crud.Mirrors.performAll`), and a read that succeeds answers with what the content has under the
key, whether the memo answers or the backend: `Crud.read_transparent`. The one thing that is asked
of the calls is that the inputs of a creation have distinct keys. What keys the created entities
get is left to the backend.
-/

namespace Reconcile

variable {σ α : Type}

namespace Backend

/-- A backend that does not use the cache. -/
def apart (b : Backend (StateM σ) α) : Backend (Work σ α) α where
  create es := StateT.lift (b.create es)
  read key? := StateT.lift (b.read key?)
  update es := StateT.lift (b.update es)
  delete es := StateT.lift (b.delete es)

/-- What a backend does in a state: when it answers, the answer and the content afterwards satisfy
`P`, and when it fails, the content is as it was. -/
def Does {β : Type} (content : σ → Content α) (s : σ) (x : StateM σ (Except String β))
    (P : β → Content α → Prop) : Prop :=
  match x.run s with
  | (.ok answer, s') => P answer (content s')
  | (.error _, s') => content s' = content s

theorem Does.cases {β : Type} {content : σ → Content α} {s : σ} {x : StateM σ (Except String β)}
    {P : β → Content α → Prop} (h : Does content s x P) :
    (∃ answer s', x.run s = (.ok answer, s') ∧ P answer (content s')) ∨
      ∃ cause s', x.run s = (.error cause, s') ∧ content s' = content s := by
  unfold Does at h
  generalize x.run s = result at h ⊢
  obtain ⟨answer, s'⟩ := result
  cases answer with
  | ok answer => exact Or.inl ⟨answer, s', rfl, h⟩
  | error cause => exact Or.inr ⟨cause, s', rfl, h⟩

/-- **A faithful backend** is a map from keys to entities. -/
structure Faithful (keyOf : α → String) (content : σ → Content α) (b : Backend (StateM σ) α) :
    Prop where
  keyed : ∀ s key e, content s key = some e → keyOf e = key
  /-- An entity for each input is created and stored. It may have another key than its input. -/
  create : ∀ s es, (es.map keyOf).Nodup → Does content s (b.create es) fun created content' =>
    created.length = es.length ∧ content' = (content s).storeAll keyOf created
  read : ∀ s key, Does content s (b.read (some key)) fun found content' =>
    found = (content s key).toList ∧ content' = content s
  list : ∀ s, Does content s (b.read none) fun found content' =>
    (∀ e, e ∈ found ↔ content s (keyOf e) = some e) ∧ content' = content s
  update : ∀ s es, Does content s (b.update es) fun updated content' =>
    content' = (content s).storeAll keyOf updated
  delete : ∀ s es, Does content s (b.delete es) fun _ content' =>
    content' = (content s).without (es.map keyOf)

end Backend

namespace Crud

open Cache

variable (crud : Crud α) (b : Backend (StateM σ) α)

/-- Performs a call and forgets its answer. -/
def perform (backend : Backend (Work σ α) α) : Request α → Work σ α Unit
  | .create es => discard (crud.create backend es)
  | .read key => discard (crud.read backend key)
  | .readAll => discard (crud.readAll backend)
  | .update es => discard (crud.update backend es)
  | .delete es => discard (crud.delete backend es)

/-- Performs calls one after the other. -/
def performAll (backend : Backend (Work σ α) α) : List (Request α) → Work σ α Unit
  | [] => pure ()
  | request :: requests => do
    crud.perform backend request
    performAll backend requests

/-! ### Calls with a backend apart -/

theorem run_create_apart (es : List α) (c : Cache α) (s : σ) :
    ((crud.create b.apart es).run c).run s =
      (crud.endCreate (crud.reserveAll es c).1 ((b.create es).run s).1 (crud.reserveAll es c).2,
        ((b.create es).run s).2) := by
  rw [run_create]
  rfl

theorem run_read_apart (key : String) (c : Cache α) (s : σ) :
    ((crud.read b.apart key).run c).run s = match crud.beginRead key c with
      | (.known h, c) => ((.ok (some h), c), s)
      | (.asked p, c) =>
        (crud.endRead key p ((b.read (some key)).run s).1 c, ((b.read (some key)).run s).2) := by
  rw [run_read]
  obtain ⟨start, c'⟩ := crud.beginRead key c
  cases start <;> rfl

theorem run_readAll_apart (c : Cache α) (s : σ) :
    ((crud.readAll b.apart).run c).run s =
      (crud.endMerge .read ((b.read none).run s).1 c, ((b.read none).run s).2) := by
  rw [run_readAll]
  rfl

theorem run_update_apart (es : List α) (c : Cache α) (s : σ) :
    ((crud.update b.apart es).run c).run s =
      (crud.endMerge .update ((b.update es).run s).1 c, ((b.update es).run s).2) := by
  rw [run_update]
  rfl

theorem run_delete_apart (es : List α) (c : Cache α) (s : σ) :
    ((crud.delete b.apart es).run c).run s =
      (crud.endDelete (es.map crud.keyOf) ((b.delete es).run s).1 c, ((b.delete es).run s).2) := by
  rw [run_delete]
  rfl

/-! ### One call -/

section Calls

variable {crud b} {content : σ → Content α} {c : Cache α} {s : σ}

theorem Mirrors.create (hb : b.Faithful crud.keyOf content) {es : List α}
    (hdistinct : (es.map crud.keyOf).Nodup) (h : crud.Mirrors (content s) [] c) :
    crud.Mirrors (content (((crud.create b.apart es).run c).run s).2) []
      (((crud.create b.apart es).run c).run s).1.2 := by
  have hreserve := h.reserveAll es
  have hseated := crud.find?_reserveAll_of_mem es c
  have hlength := crud.length_reserveAll es c
  have hkeys : ((crud.reserveAll es c).1.map fun r => r.key).Nodup := by
    rw [crud.map_key_reserveAll es c]
    exact hdistinct
  rw [List.append_nil] at hreserve
  rw [run_create_apart]
  rcases (hb.create s es hdistinct).cases with
    ⟨created, s', hrun, hlength', hcontent⟩ | ⟨cause, s', hrun, hcontent⟩
  · -- the keys of all inputs are pending, and settled one after the other
    have hpending : crud.Mirrors (content s) ((crud.reserveAll es c).1.map fun r => r.key)
        (crud.reserveAll es c).2 :=
      hreserve.congr fun key hkey =>
        ⟨fun hmem => hkey ((List.filter_sublist.map _).subset hmem), rfl⟩
    have hsettled := hpending.settleAll (hlength.trans hlength'.symm) hkeys hseated
    rw [← crud.finishCreate_of_length (hlength'.trans hlength.symm), ← hcontent] at hsettled
    rw [hrun]
    exact hsettled
  · -- the content has not changed, and the slots that were vacant are vacant again
    have hundone := hreserve.rollBack hkeys hseated
    rw [← hcontent] at hundone
    rw [hrun]
    exact hundone

theorem Mirrors.read (hb : b.Faithful crud.keyOf content) (key : String)
    (h : crud.Mirrors (content s) [] c) :
    content (((crud.read b.apart key).run c).run s).2 = content s ∧
      crud.Mirrors (content s) [] (((crud.read b.apart key).run c).run s).1.2 ∧
      ∀ answer, (((crud.read b.apart key).run c).run s).1.1 = .ok answer →
        answer.map (((crud.read b.apart key).run c).run s).1.2.entity? =
          (content s key).map some := by
  rw [run_read_apart]
  cases hfound : c.memo.find? crud.side crud.type key with
  | some k =>
    -- the memo answers, and no key is pending
    rw [crud.beginRead_of_some hfound]
    refine ⟨rfl, h, fun answer hanswer => ?_⟩
    obtain ⟨e, he, hcontent⟩ := h.shows hfound List.not_mem_nil
    cases hanswer
    simp [he, hcontent]
  | none =>
    have hpending := h.reserve hfound
    have hp := c.find?_reserve crud.side crud.type key key
    rw [if_pos rfl, c.record_reserve, hfound, Option.getD_none] at hp
    rw [crud.beginRead_of_none hfound]
    rcases (hb.read s key).cases with ⟨found, s', hrun, rfl, hcontent⟩ | ⟨cause, s', hrun, hcontent⟩
    · obtain ⟨hmirrors, -, hanswer⟩ := hpending.finishRead hp (content s key).toList
      have hstored : ∀ e ∈ (content s key).toList, content s (crud.keyOf e) = some e :=
        fun e he => by
          have he := Option.mem_toList.mp he
          rw [hb.keyed s key e he]
          exact he
      rw [Content.storeAll_of_mem hstored] at hmirrors hanswer
      rw [hrun]
      refine ⟨hcontent, hmirrors, fun answer hok => ?_⟩
      cases hok
      refine hanswer.trans ?_
      cases he : content s key with
      | none => rfl
      | some e =>
        have hkey : crud.answerKey? key (some e).toList = some key :=
          if_pos ⟨e, List.mem_singleton_self e, hb.keyed s key e he⟩
        rw [hkey, Option.map_some, he, Option.map_some]
    · rw [hrun]
      exact ⟨hcontent, hpending.abandonRead hp, fun answer hok => by cases hok⟩

theorem Mirrors.readAll (hb : b.Faithful crud.keyOf content) (h : crud.Mirrors (content s) [] c) :
    crud.Mirrors (content (((crud.readAll b.apart).run c).run s).2) []
      (((crud.readAll b.apart).run c).run s).1.2 := by
  rw [run_readAll_apart]
  rcases (hb.list s).cases with ⟨found, s', hrun, hfound, hcontent⟩ | ⟨cause, s', hrun, hcontent⟩
  · have hmerged := h.mergeAll found
    rw [Content.storeAll_of_mem fun e he => (hfound e).mp he, ← hcontent] at hmerged
    rw [hrun]
    exact hmerged
  · rw [← hcontent] at h
    rw [hrun]
    exact h

theorem Mirrors.update (hb : b.Faithful crud.keyOf content) (es : List α)
    (h : crud.Mirrors (content s) [] c) :
    crud.Mirrors (content (((crud.update b.apart es).run c).run s).2) []
      (((crud.update b.apart es).run c).run s).1.2 := by
  rw [run_update_apart]
  rcases (hb.update s es).cases with ⟨updated, s', hrun, hcontent⟩ | ⟨cause, s', hrun, hcontent⟩
  · have hmerged := h.mergeAll updated
    rw [← hcontent] at hmerged
    rw [hrun]
    exact hmerged
  · rw [← hcontent] at h
    rw [hrun]
    exact h

theorem Mirrors.delete (hb : b.Faithful crud.keyOf content) (es : List α)
    (h : crud.Mirrors (content s) [] c) :
    crud.Mirrors (content (((crud.delete b.apart es).run c).run s).2) []
      (((crud.delete b.apart es).run c).run s).1.2 := by
  rw [run_delete_apart]
  rcases (hb.delete s es).cases with ⟨_, s', hrun, hcontent⟩ | ⟨cause, s', hrun, hcontent⟩
  · have hvacated := h.evictAll (es.map crud.keyOf)
    rw [← hcontent] at hvacated
    rw [hrun]
    exact hvacated
  · rw [← hcontent] at h
    rw [hrun]
    exact h

/-! ### A sequence of calls -/

/-- Every call leaves a cache that mirrors the content. -/
theorem Mirrors.perform (hb : b.Faithful crud.keyOf content) {request : Request α}
    (hdistinct : ∀ es, request = .create es → (es.map crud.keyOf).Nodup)
    (h : crud.Mirrors (content s) [] c) :
    crud.Mirrors (content (((crud.perform b.apart request).run c).run s).2) []
      (((crud.perform b.apart request).run c).run s).1.2 := by
  cases request with
  | create es => exact h.create hb (hdistinct es rfl)
  | read key =>
    obtain ⟨hsame, hmirrors, -⟩ := h.read hb key
    rw [← hsame] at hmirrors
    exact hmirrors
  | readAll => exact h.readAll hb
  | update es => exact h.update hb es
  | delete es => exact h.delete hb es

/-- Every sequence of calls leaves a cache that mirrors the content. -/
theorem Mirrors.performAll (hb : b.Faithful crud.keyOf content) {requests : List (Request α)}
    (hdistinct : ∀ es, Request.create es ∈ requests → (es.map crud.keyOf).Nodup)
    (h : crud.Mirrors (content s) [] c) :
    crud.Mirrors (content (((crud.performAll b.apart requests).run c).run s).2) []
      (((crud.performAll b.apart requests).run c).run s).1.2 := by
  induction requests generalizing c s with
  | nil => exact h
  | cons request requests ih =>
    have hfirst := h.perform hb fun es heq => hdistinct es (heq ▸ List.mem_cons_self)
    exact ih (fun es hes => hdistinct es (List.mem_cons_of_mem _ hes)) hfirst

end Calls

/-- **The memo is transparent.** After any sequence of calls, failed or not, on a cache that had
nothing under the side's keys, a read that succeeds answers with what the backend's content has
under the key: with nothing, or with a record that holds the entity. -/
theorem read_transparent (crud : Crud α) (b : Backend (StateM σ) α) {content : σ → Content α}
    (hb : b.Faithful crud.keyOf content) {requests : List (Request α)}
    (hdistinct : ∀ es, Request.create es ∈ requests → (es.map crud.keyOf).Nodup)
    {c c' c'' : Cache α} {s s' s'' : σ} (hc : c.Sound)
    (hvacant : ∀ key, c.memo.find? crud.side crud.type key = none)
    (hrun : ((crud.performAll b.apart requests).run c).run s = (((), c'), s')) {key : String}
    {answer : Option Handle}
    (hread : ((crud.read b.apart key).run c').run s' = ((.ok answer, c''), s'')) :
    answer.map c''.entity? = (content s' key).map some := by
  have hstart : crud.Mirrors (content s) [] c := mirrors_of_vacant hc hvacant
  have hmirrors := hstart.performAll hb hdistinct
  rw [hrun] at hmirrors
  have hanswer := (hmirrors.read hb key).2.2
  rw [hread] at hanswer
  exact hanswer answer rfl

/-! ### A shelf -/

/-- Puts numbers on a shelf, each under its label. -/
def shelve (shelf : Keyed String Nat) (es : List (String × Nat)) : Keyed String Nat :=
  es.foldl (fun shelf e => shelf.put e.1 e.2) shelf

/-- A backend that keeps numbers under labels. It refuses the label `taken`, and a number without a
label gets the label `new`. -/
def shelfBackend : Backend (StateM (Keyed String Nat)) (String × Nat) where
  create es := fun shelf =>
    let labelled := es.map fun e => if e.1 = "" then ("new", e.2) else e
    if "taken" ∈ es.map Prod.fst then (.error "the label is taken", shelf)
    else (.ok labelled, shelve shelf labelled)
  read key? := fun shelf =>
    match key? with
    | some key => (.ok ((shelf.find? key).map fun n => (key, n)).toList, shelf)
    | none => (.ok shelf.pairs, shelf)
  update es := fun shelf => (.ok es, shelve shelf es)
  delete es := fun shelf => (.ok (), es.foldl (fun shelf e => shelf.erase e.1) shelf)

/-- What is on a shelf. -/
def shelfContent (shelf : Keyed String Nat) : Content (String × Nat) := fun key =>
  (shelf.find? key).map fun n => (key, n)

theorem shelfContent_shelve (es : List (String × Nat)) (shelf : Keyed String Nat) :
    shelfContent (shelve shelf es) = (shelfContent shelf).storeAll Prod.fst es := by
  induction es generalizing shelf with
  | nil => rfl
  | cons e es ih =>
    have hput : shelfContent (shelf.put e.1 e.2) = (shelfContent shelf).store Prod.fst e := by
      funext key
      rw [shelfContent, Keyed.find?_put, Content.store]
      split_ifs with hkey
      · rw [hkey]
        rfl
      · rfl
    rw [Content.storeAll, List.foldl_cons, ← hput]
    exact ih (shelf.put e.1 e.2)

theorem shelfContent_erase (es : List (String × Nat)) (shelf : Keyed String Nat) :
    shelfContent (es.foldl (fun shelf e => shelf.erase e.1) shelf) =
      (shelfContent shelf).without (es.map Prod.fst) := by
  induction es generalizing shelf with
  | nil => exact funext fun key => (if_neg List.not_mem_nil).symm
  | cons e es ih =>
    refine (ih (shelf.erase e.1)).trans (funext fun key => ?_)
    simp only [Content.without, shelfContent, Keyed.find?_erase, List.map_cons, List.mem_cons]
    by_cases hkey : key = e.1
    · simp [hkey]
    · rw [if_neg hkey]
      exact if_congr (or_iff_right hkey).symm rfl rfl

/-- The backend that keeps a shelf is faithful to what is on it. -/
theorem faithful_shelfBackend : shelfBackend.Faithful Prod.fst shelfContent := by
  refine ⟨fun shelf key e he => ?_, fun shelf es _ => ?_, fun shelf key => ⟨rfl, rfl⟩,
    fun shelf => ⟨fun e => ?_, rfl⟩, fun shelf es => shelfContent_shelve es shelf,
    fun shelf es => shelfContent_erase es shelf⟩
  · obtain ⟨n, -, rfl⟩ := Option.map_eq_some_iff.mp he
    rfl
  · unfold Backend.Does
    by_cases htaken : "taken" ∈ es.map Prod.fst
    · have hrun : (shelfBackend.create es).run shelf = (.error "the label is taken", shelf) :=
        if_pos htaken
      rw [hrun]
    · have hrun : (shelfBackend.create es).run shelf = (.ok _, shelve shelf _) := if_neg htaken
      rw [hrun]
      exact ⟨List.length_map _, shelfContent_shelve _ shelf⟩
  · obtain ⟨key, n⟩ := e
    simp [shelfContent, Keyed.find?_eq_some_iff]

/-- Two numbers are put on a shelf, one without a label; a third one is refused. The unlabelled
number is changed, and the other one is taken away. -/
def shelfRequests : List (Request (String × Nat)) :=
  [.create [("a", 1), ("", 2)], .create [("taken", 3)], .read "new", .update [("new", 4)],
    .delete [("a", 0)], .readAll]

/-- The cloud side of queues, as numbers under labels. -/
def shelfCrud : Crud (String × Nat) := ⟨⟨"Queue", "Queue"⟩, .cloud, Prod.fst⟩

/-- The cache and the shelf after the requests. -/
def shelfAfter : (Unit × Cache (String × Nat)) × Keyed String Nat :=
  ((shelfCrud.performAll shelfBackend.apart shelfRequests).run Cache.empty).run Keyed.empty

/-- The read of the label that the backend gave. -/
def shelfReading : (Except ResourceError (Option Handle) × Cache (String × Nat)) ×
    Keyed String Nat :=
  ((shelfCrud.read shelfBackend.apart "new").run shelfAfter.1.2).run shelfAfter.2

/-- The memo answers for the number that got its label from the backend, with what is on the
shelf. -/
theorem read_transparent_shelf :
    let h : Handle := ⟨shelfCrud.type, 1⟩
    shelfReading.1.1 = .ok (some h) ∧ shelfContent shelfAfter.2 "new" = some ("new", 4) ∧
      shelfReading.1.2.entity? h = shelfContent shelfAfter.2 "new" := by
  intro h
  have hdistinct : ∀ es, Request.create es ∈ shelfRequests → (es.map shelfCrud.keyOf).Nodup := by
    intro es hes
    simp only [shelfRequests, List.mem_cons, Request.create.injEq, reduceCtorEq, List.not_mem_nil,
      or_false] at hes
    rcases hes with rfl | rfl <;> decide
  have hanswer : shelfReading.1.1 = .ok (some h) := by decide +kernel
  have hcontent : shelfContent shelfAfter.2 "new" = some ("new", 4) := by decide +kernel
  have hafter : ((shelfCrud.performAll shelfBackend.apart shelfRequests).run Cache.empty).run
      Keyed.empty = shelfAfter := rfl
  have hreading : ((shelfCrud.read shelfBackend.apart "new").run shelfAfter.1.2).run shelfAfter.2 =
      shelfReading := rfl
  -- from here on, what the two runs come to is known by its equations only
  generalize shelfReading = reading at hreading hanswer ⊢
  generalize shelfAfter = after at hafter hreading hcontent ⊢
  obtain ⟨⟨⟨⟩, c⟩, s⟩ := after
  obtain ⟨⟨answer, c'⟩, s'⟩ := reading
  obtain rfl : answer = .ok (some h) := hanswer
  have hsame := read_transparent shelfCrud shelfBackend faithful_shelfBackend hdistinct sound_empty
    (fun _ => rfl) hafter hreading
  rw [hcontent] at hsame
  exact ⟨rfl, hcontent, (Option.some.inj hsame).trans hcontent.symm⟩

end Crud

end Reconcile
