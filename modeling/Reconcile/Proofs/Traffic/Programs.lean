import Reconcile.Proofs.Traffic.Calls
import Reconcile.Proofs.Traffic.Identity

/-!
# Programs make events

A program uses a cache through the calls of `Crud`, whose backends may themselves be programs that
use the cache through calls. What such a program does to the cache is a run of events: each call
begins, its backend's calls begin and end, and it ends with the backend's answer
(`Traffic.Accounted`). So what is true of all histories is true of programs.

The events satisfy whatever condition `P` allows every call to begin where the program makes it, and
every call to end. With the condition that is always true, every program of calls is accounted for,
so that it leaves no placeholder in a slot (`Traffic.Accounted.filled`). With that of an orderly
history, every record is under its own key afterwards (`Traffic.Accounted.tidy`).
-/

namespace Reconcile

namespace Traffic

variable {σ α β : Type} {P : Traffic α → Event α → Prop} {calls : List (Call α)}

/-- **Accounting**: what the program does to a cache, while the given calls are under way, is what
some events do, each of which satisfies `P`. The calls are under way still. -/
def Accounted (P : Traffic α → Event α → Prop) (calls : List (Call α)) (x : Work σ α β) : Prop :=
  ∀ c s, ∃ events, (Traffic.mk c calls).Legal P events ∧
    (Traffic.mk c calls).run events = ⟨((x.run c).run s).1.2, calls⟩

theorem accounted_pure (b : β) : Accounted P calls (pure b : Work σ α β) :=
  fun _ _ => ⟨[], trivial, rfl⟩

/-- What a backend does to its own state makes no events. -/
theorem accounted_lift (x : StateM σ β) : Accounted P calls (StateT.lift x : Work σ α β) :=
  fun _ _ => ⟨[], trivial, rfl⟩

/-- One program after the other. -/
theorem Accounted.bind {γ : Type} {x : Work σ α β} {f : β → Work σ α γ}
    (hx : Accounted P calls x) (hf : ∀ b, Accounted P calls (f b)) :
    Accounted P calls (x >>= f) := by
  intro c s
  obtain ⟨events, hlegal, hrun⟩ := hx c s
  obtain ⟨events', hlegal', hrun'⟩ := hf ((x.run c).run s).1.1 ((x.run c).run s).1.2
    ((x.run c).run s).2
  refine ⟨events ++ events', legal_append.mpr ⟨hlegal, ?_⟩, ?_⟩
  · rw [hrun]
    exact hlegal'
  · rw [run_append, hrun]
    exact hrun'

/-- A call that is under way while its backend works: it begins, the backend makes its events, and
it ends. -/
theorem exists_events_call (hfinish : ∀ t n answer, P t (.finish n answer)) {crud : Crud α}
    {request : Request α} {c c₁ c₂ : Cache α} {call : Call α}
    (hallowed : P ⟨c, calls⟩ (.begin crud request))
    (hbegin : request.begin crud c = (some call, c₁))
    (hbackend : ∃ events, (Traffic.mk c₁ (call :: calls)).Legal P events ∧
      (Traffic.mk c₁ (call :: calls)).run events = ⟨c₂, call :: calls⟩) (answer : Answer α) :
    ∃ events, (Traffic.mk c calls).Legal P events ∧
      (Traffic.mk c calls).run events = ⟨call.finish answer c₂, calls⟩ := by
  obtain ⟨events, hlegal, hrun⟩ := hbackend
  have hstep : (Traffic.mk c calls).step (.begin crud request) = ⟨c₁, call :: calls⟩ := by
    simp [step, hbegin]
  refine ⟨.begin crud request :: (events ++ [.finish 0 answer]), ⟨hallowed, ?_⟩, ?_⟩
  · rw [hstep]
    exact legal_append.mpr ⟨hlegal, hfinish _ _ _, trivial⟩
  · rw [run_cons, hstep, run_append, hrun]
    rfl

/-! ### The calls

Each call is accounted for if its backend is, whatever other calls are under way, and if it may
begin. Its last phase is the end of the call. -/

/-- A call that always asks its backend is accounted for if the backend is. -/
theorem accounted_call (hfinish : ∀ t n answer, P t (.finish n answer)) {γ : Type} {crud : Crud α}
    {request : Request α} {x : Work σ α β} {backend : Work σ α γ} {call : Cache α → Call α}
    {begun : Cache α → Cache α} (hallowed : ∀ c, P ⟨c, calls⟩ (.begin crud request))
    (hbegin : ∀ c, request.begin crud c = (some (call c), begun c))
    (hbackend : ∀ calls, Accounted P calls backend) (answer : γ → Answer α)
    (hend : ∀ c s, ((x.run c).run s).1.2 =
      (call c).finish (answer ((backend.run (begun c)).run s).1.1)
        ((backend.run (begun c)).run s).1.2) :
    Accounted P calls x := by
  intro c s
  obtain ⟨events, hlegal, hrun⟩ := exists_events_call hfinish (hallowed c) (hbegin c)
    (hbackend _ _ s) (answer ((backend.run (begun c)).run s).1.1)
  refine ⟨events, hlegal, ?_⟩
  rw [hrun, hend]

section Calls

variable {crud : Crud α} {backend : Backend (Work σ α) α}

theorem accounted_create (hfinish : ∀ t n answer, P t (.finish n answer)) {es : List α}
    (hallowed : ∀ c, P ⟨c, calls⟩ (.begin crud (.create es)))
    (hbackend : ∀ calls, Accounted P calls (backend.create es)) :
    Accounted P calls (crud.create backend es) := by
  refine accounted_call hfinish hallowed (fun _ => rfl) hbackend id fun c s => ?_
  rw [Crud.run_create]
  exact crud.snd_endCreate _ _ _

theorem accounted_read (hfinish : ∀ t n answer, P t (.finish n answer)) {key : String}
    (hallowed : ∀ c, P ⟨c, calls⟩ (.begin crud (.read key)))
    (hbackend : ∀ calls, Accounted P calls (backend.read (some key))) :
    Accounted P calls (crud.read backend key) := by
  intro c s
  rw [Crud.run_read]
  cases hbegin : crud.beginRead key c with
  | mk start c₁ =>
    cases start with
    | known h =>
      -- the memo answers, so the call begins and is over
      have hstep : (Traffic.mk c calls).step (.begin crud (.read key)) = ⟨c₁, calls⟩ := by
        simp [step, Request.begin, hbegin]
      exact ⟨[.begin crud (.read key)], ⟨hallowed c, trivial⟩, hstep⟩
    | asked p =>
      have hrequest : (Request.read key).begin crud c = (some (.reading crud key p), c₁) := by
        simp [Request.begin, hbegin]
      obtain ⟨events, hlegal, hrun⟩ := exists_events_call hfinish (hallowed c) hrequest
        (hbackend _ _ s) (((backend.read (some key)).run c₁).run s).1.1
      refine ⟨events, hlegal, hrun.trans ?_⟩
      rw [← crud.snd_endRead]
      rfl

theorem accounted_readAll (hfinish : ∀ t n answer, P t (.finish n answer))
    (hallowed : ∀ c, P ⟨c, calls⟩ (.begin crud .readAll))
    (hbackend : ∀ calls, Accounted P calls (backend.read none)) :
    Accounted P calls (crud.readAll backend) := by
  refine accounted_call hfinish hallowed (fun _ => rfl) hbackend id fun c s => ?_
  rw [Crud.run_readAll]
  exact crud.snd_endList _ _

theorem accounted_update (hfinish : ∀ t n answer, P t (.finish n answer)) {es : List α}
    (hallowed : ∀ c, P ⟨c, calls⟩ (.begin crud (.update es)))
    (hbackend : ∀ calls, Accounted P calls (backend.update es)) :
    Accounted P calls (crud.update backend es) := by
  refine accounted_call hfinish hallowed (fun _ => rfl) hbackend id fun c s => ?_
  rw [Crud.run_update]
  exact crud.snd_endUpdate _ _

theorem accounted_delete (hfinish : ∀ t n answer, P t (.finish n answer)) {es : List α}
    (hallowed : ∀ c, P ⟨c, calls⟩ (.begin crud (.delete es)))
    (hbackend : ∀ calls, Accounted P calls (backend.delete es)) :
    Accounted P calls (crud.delete backend es) := by
  refine accounted_call hfinish hallowed (fun _ => rfl) hbackend
    (fun answer => answer.map fun _ => []) fun c s => ?_
  rw [Crud.run_delete]
  exact crud.snd_endDelete _ _ _

end Calls

/-! ### What programs leave behind -/

/-- A program of calls leaves no placeholder in a slot. -/
theorem Accounted.filled {x : Work σ α β} (hx : Accounted (fun _ _ => True) [] x)
    (records : Records α) (s : σ) {slot : Slot} {h : Handle}
    (hslot : ((x.run ⟨records, Memo.empty⟩).run s).1.2.recordAt? slot = some h) :
    ((x.run ⟨records, Memo.empty⟩).run s).1.2.entity? h ≠ none := by
  obtain ⟨events, -, hrun⟩ := hx ⟨records, Memo.empty⟩ s
  have howned := owned_run records events
  rw [start, hrun] at howned
  exact howned.filled rfl hslot

/-- A program of orderly calls leaves every record under its own key. -/
theorem Accounted.tidy {keyOf : EntityType → α → String} {x : Work σ α β}
    (hx : Accounted (Allows keyOf) [] x) (records : Records α) (s : σ) :
    ((x.run ⟨records, Memo.empty⟩).run s).1.2.Tidy keyOf [] := by
  obtain ⟨events, hlegal, hrun⟩ := hx ⟨records, Memo.empty⟩ s
  have htidy := ((tidy_start keyOf records).run hlegal).cache
  rw [start, hrun] at htidy
  exact htidy

end Traffic

end Reconcile
