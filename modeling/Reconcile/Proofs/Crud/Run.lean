import Reconcile.Crud.Call

/-!
# Calls that carry the cache as their state

When the cache is the state of the monad in which calls run, a call is its first phase, then what
its backend does to the cache, then its last phase. Each equation here takes one call apart in this
way. The rest of the monad, in which the backends do their work, is arbitrary.
-/

namespace Reconcile

/-- The monad of calls on a cache whose backends work on a state of their own. -/
abbrev Work (σ α : Type) := StateT (Cache α) (StateM σ)

namespace Crud

variable {α : Type} {n : Type → Type} [Monad n] (crud : Crud α)

/-- The last phase of a creation. -/
def endCreate (reserved : List Reserved) :
    Except String (List α) → Cache α → Except ResourceError (List Handle) × Cache α
  | .error cause, c => (.error (crud.failure .create cause), crud.rollBack reserved c)
  | .ok created, c =>
    (.ok (crud.finishCreate reserved created c).1, (crud.finishCreate reserved created c).2)

/-- The last phase of a read that asked its backend. -/
def endRead (key : String) (placeholder : Handle) :
    Except String (List α) → Cache α → Except ResourceError (Option Handle) × Cache α
  | .error cause, c => (.error (crud.failure .read cause), crud.abandonRead key placeholder c)
  | .ok found, c =>
    (.ok (crud.finishRead key placeholder found c).1, (crud.finishRead key placeholder found c).2)

/-- The last phase of a listing or an update. -/
def endMerge (operation : Operation) :
    Except String (List α) → Cache α → Except ResourceError (List Handle) × Cache α
  | .error cause, c => (.error (crud.failure operation cause), c)
  | .ok es, c => (.ok (crud.mergeAll es c).1, (crud.mergeAll es c).2)

/-- The last phase of a deletion. -/
def endDelete (keys : List String) :
    Except String Unit → Cache α → Except ResourceError Unit × Cache α
  | .error cause, c => (.error (crud.failure .delete cause), c)
  | .ok (), c => (.ok (), crud.evictAll keys c)

variable [LawfulMonad n] (backend : Backend (StateT (Cache α) n) α)

/-- A phase changes the cache and does nothing else, before the rest of a call. -/
private theorem run_phase {β γ : Type} (f : Cache α → β × Cache α)
    (rest : β → StateT (Cache α) n γ) (c : Cache α) :
    (modifyGetThe (Cache α) f >>= rest).run c = (rest (f c).1).run (f c).2 :=
  pure_bind (f c) fun x => (rest x.1).run x.2

theorem run_create (es : List α) (c : Cache α) :
    (crud.create backend es).run c =
      ((backend.create es).run (crud.reserveAll es c).2 >>= fun x =>
        pure (crud.endCreate (crud.reserveAll es c).1 x.1 x.2)) := by
  unfold create
  rw [run_phase, StateT.run_bind]
  refine bind_congr fun x => ?_
  obtain ⟨answer, c'⟩ := x
  cases answer with
  | error cause => exact run_phase (fun c => ((), crud.rollBack _ c)) _ c'
  | ok created => exact run_phase (crud.finishCreate _ created) _ c'

/-- A creation whose backend answers takes the answer in. -/
theorem run_create_ok {σ : Type} (backend : Backend (Work σ α) α) {es created : List α}
    {c c' : Cache α} {s s' : σ}
    (hrun : ((backend.create es).run (crud.reserveAll es c).2).run s = ((.ok created, c'), s')) :
    ((crud.create backend es).run c).run s =
      ((.ok (crud.finishCreate (crud.reserveAll es c).1 created c').1,
        (crud.finishCreate (crud.reserveAll es c).1 created c').2), s') := by
  rw [run_create, StateT.run_bind, hrun]
  rfl

theorem run_read (key : String) (c : Cache α) :
    (crud.read backend key).run c = match crud.beginRead key c with
      | (.known h, c) => pure (.ok (some h), c)
      | (.asked p, c) => (backend.read (some key)).run c >>= fun x =>
        pure (crud.endRead key p x.1 x.2) := by
  unfold read
  rw [run_phase]
  obtain ⟨start, c'⟩ := crud.beginRead key c
  cases start with
  | known h => rfl
  | asked p =>
    simp only [StateT.run_bind]
    refine bind_congr fun x => ?_
    obtain ⟨answer, c'⟩ := x
    cases answer with
    | error cause => exact run_phase (fun c => ((), crud.abandonRead key p c)) _ c'
    | ok found => exact run_phase (crud.finishRead key p found) _ c'

/-- A read that asks its backend takes in what the backend finds. -/
theorem run_read_ok {σ : Type} (backend : Backend (Work σ α) α) {key : String} {p : Handle}
    {found : List α} {c c₁ c₂ : Cache α} {s s' : σ} (hbegin : crud.beginRead key c = (.asked p, c₁))
    (hrun : ((backend.read (some key)).run c₁).run s = ((.ok found, c₂), s')) :
    ((crud.read backend key).run c).run s =
      ((.ok (crud.finishRead key p found c₂).1, (crud.finishRead key p found c₂).2), s') := by
  rw [run_read, hbegin, StateT.run_bind, hrun]
  rfl

theorem run_readAll (c : Cache α) :
    (crud.readAll backend).run c =
      ((backend.read none).run c >>= fun x => pure (crud.endMerge .read x.1 x.2)) := by
  unfold readAll
  rw [StateT.run_bind]
  refine bind_congr fun x => ?_
  obtain ⟨answer, c'⟩ := x
  cases answer with
  | error cause => rfl
  | ok found => exact run_phase (crud.mergeAll found) _ c'

theorem run_update (es : List α) (c : Cache α) :
    (crud.update backend es).run c =
      ((backend.update es).run c >>= fun x => pure (crud.endMerge .update x.1 x.2)) := by
  unfold update
  rw [StateT.run_bind]
  refine bind_congr fun x => ?_
  obtain ⟨answer, c'⟩ := x
  cases answer with
  | error cause => rfl
  | ok updated => exact run_phase (crud.mergeAll updated) _ c'

/-- An update whose backend answers takes the answer in. -/
theorem run_update_ok {σ : Type} (backend : Backend (Work σ α) α) {es updated : List α}
    {c c' : Cache α} {s s' : σ}
    (hrun : ((backend.update es).run c).run s = ((.ok updated, c'), s')) :
    ((crud.update backend es).run c).run s =
      ((.ok (crud.mergeAll updated c').1, (crud.mergeAll updated c').2), s') := by
  rw [run_update, StateT.run_bind, hrun]
  rfl

theorem run_delete (es : List α) (c : Cache α) :
    (crud.delete backend es).run c = ((backend.delete es).run c >>= fun x =>
      pure (crud.endDelete (es.map crud.keyOf) x.1 x.2)) := by
  unfold delete
  rw [StateT.run_bind]
  refine bind_congr fun x => ?_
  obtain ⟨answer, c'⟩ := x
  cases answer with
  | error cause => rfl
  | ok done => exact run_phase (fun c => ((), crud.evictAll (es.map crud.keyOf) c)) _ c'

end Crud

end Reconcile
