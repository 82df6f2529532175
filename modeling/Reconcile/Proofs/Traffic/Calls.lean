import Reconcile.Proofs.Crud.Transparent

/-!
# A call from its beginning to its end

The calls of `Crud` are programs; `Request.begin` and `Call.finish` are what such a program does to
the cache before and after its backend is asked. The last phase of each program is the end of the
call (`Crud.snd_endCreate` and its companions), so a call that is performed begins, asks its backend
and ends with the backend's answer: `Crud.run_perform`.
-/

namespace Reconcile

variable {σ α : Type}

/-- What a backend is asked for by a request. The answer to a deletion has no entities. -/
def Backend.answer {m : Type → Type} [Monad m] (backend : Backend m α) :
    Request α → m (Answer α)
  | .create es => backend.create es
  | .read key => backend.read (some key)
  | .readAll => backend.read none
  | .update es => backend.update es
  | .delete es => do return (← backend.delete es).map fun _ => []

/-- A call that is over at once has changed nothing. -/
theorem Request.begin_eq_none {crud : Crud α} {request : Request α} {c c₁ : Cache α}
    (hbegin : request.begin crud c = (none, c₁)) : c₁ = c := by
  cases request with
  | read key =>
    cases hfound : c.memo.find? crud.side crud.type key with
    | some h =>
      rw [begin_read_of_some hfound] at hbegin
      exact (congrArg Prod.snd hbegin).symm
    | none =>
      rw [begin_read_of_none hfound] at hbegin
      cases hbegin
  | create es => cases hbegin
  | readAll => cases hbegin
  | update es => cases hbegin
  | delete es => cases hbegin

namespace Crud

variable (crud : Crud α)

/-! ### The last phases -/

theorem snd_endCreate (reserved : List Reserved) (answer : Answer α) (c : Cache α) :
    (crud.endCreate reserved answer c).2 = (Call.creating crud reserved).finish answer c := by
  cases answer <;> rfl

theorem snd_endRead (key : String) (p : Handle) (answer : Answer α) (c : Cache α) :
    (crud.endRead key p answer c).2 = (Call.reading crud key p).finish answer c := by
  cases answer <;> rfl

theorem snd_endList (answer : Answer α) (c : Cache α) :
    (crud.endMerge .read answer c).2 = (Call.listing crud).finish answer c := by
  cases answer <;> rfl

theorem snd_endUpdate (answer : Answer α) (c : Cache α) :
    (crud.endMerge .update answer c).2 = (Call.updating crud).finish answer c := by
  cases answer <;> rfl

theorem snd_endDelete (keys : List String) (answer : Except String Unit) (c : Cache α) :
    (crud.endDelete keys answer c).2 =
      (Call.deleting crud keys).finish (answer.map fun _ => []) c := by
  cases answer <;> rfl

/-! ### The whole call -/

/-- A program whose answer is forgotten leaves the same cache and the same state behind. -/
theorem run_discard {β : Type} (x : Work σ α β) (c : Cache α) (s : σ) :
    ((discard x : Work σ α Unit).run c).run s =
      (((), ((x.run c).run s).1.2), ((x.run c).run s).2) := rfl

/-- **A call** begins, asks its backend and takes the answer in. It is over at once if the memo
answers. -/
theorem run_perform (backend : Backend (Work σ α) α) (request : Request α) (c : Cache α) (s : σ) :
    ((crud.perform backend request).run c).run s = match request.begin crud c with
      | (none, c₁) => (((), c₁), s)
      | (some call, c₁) =>
        let asked := ((backend.answer request).run c₁).run s
        (((), call.finish asked.1.1 asked.1.2), asked.2) := by
  cases request with
  | create es =>
    rw [perform, run_discard, run_create]
    exact congrArg (fun c' => (((), c'), _)) (crud.snd_endCreate _ _ _)
  | read key =>
    rw [perform, run_discard, run_read]
    cases hfound : c.memo.find? crud.side crud.type key with
    | some h =>
      rw [crud.beginRead_of_some hfound, Request.begin_read_of_some hfound]
      rfl
    | none =>
      rw [crud.beginRead_of_none hfound, Request.begin_read_of_none hfound]
      exact congrArg (fun c' => (((), c'), _)) (crud.snd_endRead _ _ _ _)
  | readAll =>
    rw [perform, run_discard, run_readAll]
    exact congrArg (fun c' => (((), c'), _)) (crud.snd_endList _ _)
  | update es =>
    rw [perform, run_discard, run_update]
    exact congrArg (fun c' => (((), c'), _)) (crud.snd_endUpdate _ _)
  | delete es =>
    rw [perform, run_discard, run_delete]
    exact congrArg (fun c' => (((), c'), _)) (crud.snd_endDelete _ _ _)

end Crud

end Reconcile
