import Reconcile.Proofs.Except
import Reconcile.Proofs.Store.Backend

/-!
# Reading from the store

The store finds the rows that agree with the columns of a key, and the entities in them are what a
read on the declared side takes in. In a fresh cache the read answers with the last one of the
entities of one key (`Crud.freshRead_of_ok`): of the key that was asked for if there is one, and
otherwise of the key of the first entity.
-/

namespace Reconcile

/-! ### Rows and the columns of a key -/

theorem nodup_map_fst_zip {β γ : Type} {names : List β} (h : names.Nodup) (parts : List γ) :
    ((names.zip parts).map Prod.fst).Nodup := by
  induction names generalizing parts with
  | nil => exact List.nodup_nil
  | cons name names ih =>
    cases parts with
    | nil => exact List.nodup_nil
    | cons part parts =>
      obtain ⟨hfirst, hrest⟩ := List.nodup_cons.mp h
      refine List.nodup_cons.mpr ⟨fun hmem => ?_, ih hrest parts⟩
      obtain ⟨pair, hpair, rfl⟩ := List.mem_map.mp hmem
      exact hfirst (List.of_mem_zip hpair).1

/-- A row agrees with pairs of distinct names if it has their texts. -/
theorem Row.agrees_ofPairs_iff {pairs : List (String × String)} (h : (pairs.map Prod.fst).Nodup)
    {row : Row} : row.agrees (Fields.ofPairs pairs) = true ↔
      ∀ name text, (name, text) ∈ pairs → row.column? name = some text := by
  rw [agrees_iff]
  simp only [Fields.mem_ofPairs_iff_of_nodup h]

variable {α : Type}

/-! ### Reading in a fresh cache -/

namespace Crud

open Cache

/-- A read that asks its backend in a fresh cache answers with the last entity of one key. -/
theorem finishRead_empty (crud : Crud α) (key : String) (found : List α) :
    let c := (Cache.empty.reserve crud.side crud.type key).2
    let p := Cache.empty.nextRecord crud.type (α := α)
    (crud.finishRead key p found c).1.map (crud.finishRead key p found c).2.entity? =
      (crud.answerKey? key found).map (crud.lastOf found) := by
  have hvacant : (Cache.empty : Cache α).memo.find? crud.side crud.type key = none := rfl
  have hstart : crud.Mirrors (fun _ => none) [] Cache.empty :=
    mirrors_of_vacant sound_empty fun _ => rfl
  have hpending := hstart.reserve hvacant
  have hseat := Cache.empty.find?_reserve crud.side crud.type key key (α := α)
  rw [if_pos rfl, record_reserve, hvacant, Option.getD_none] at hseat
  obtain ⟨-, -, hanswer⟩ := hpending.finishRead hseat found
  have hstored : Content.storeAll crud.keyOf (fun _ => none) found = crud.lastOf found :=
    funext fun k => by rw [Content.storeAll_apply, Option.or_none, lastOf]
  rwa [hstored] at hanswer

end Crud

/-! ### Reading from the store -/

variable [Entity α]

namespace Store

/-- What is found under a key comes from rows that agree with the columns of the key. -/
theorem exists_row_of_mem_found {identity : Identity α} {id : String} {store : Store}
    {found : List α} (h : readEntities identity (some id) store = .ok found) {e : α}
    (he : e ∈ found) :
    ∃ row : Row, row.agrees (identity.idFields id) = true ∧ Entity.ofRow (.obj row) = .ok e := by
  obtain ⟨value, hvalue, hok⟩ := exists_mem_of_mapM h he
  obtain ⟨row, hrow, rfl⟩ := List.mem_map.mp hvalue
  exact ⟨row, (List.mem_filter.mp hrow).2, eq_ok_of_mapError hok⟩

/-- If there is only one row, the entity in it is found under the keys with whose columns the row
agrees. -/
theorem readEntities_of_row {identity : Identity α} {store : Store} {row : Row} {e : α}
    (hrows : (store.table identity.schema.table).rows = [row])
    (he : Entity.ofRow (.obj row) = .ok e) (id : String) :
    readEntities identity (some id) store =
      .ok (if row.agrees (identity.idFields id) then [e] else []) := by
  have hfind : store.find identity.schema (identity.idFields id) =
      if row.agrees (identity.idFields id) then [.obj row] else [] := by
    rw [find, Table.find, hrows, List.filter_singleton]
    cases row.agrees (identity.idFields id) <;> rfl
  unfold readEntities
  simp only [hfind]
  cases row.agrees (identity.idFields id) with
  | false => rfl
  | true =>
    change ofRows [.obj row] = .ok [e]
    rw [ofRows, List.mapM_cons, he]
    rfl

end Store

namespace Crud

open Cache Store

variable {identity : Identity α} {id : String} {store : Store} {found : List α}

/-- The read of a key on the declared side in a fresh cache: its answer, the cache and the store
afterwards. -/
def freshRead (type : EntityType) (identity : Identity α) (id : String) (store : Store) :
    (Except ResourceError (Option Handle) × Cache α) × Store :=
  (((declared type identity).read (stored identity) id).run Cache.empty).run store

/-- A read of the store in a fresh cache answers with the last one of the entities of one key that
the store finds. -/
theorem freshRead_of_ok (type : EntityType)
    (h : readEntities identity (some id) store = .ok found) :
    let run := freshRead type identity id store
    let crud := declared type identity
    ∃ answer, run.1.1 = .ok answer ∧ run.2 = store ∧
      answer.map run.1.2.entity? = (crud.answerKey? id found).map (crud.lastOf found) := by
  intro run crud
  have hrun : run = _ := run_read_stored crud identity Cache.empty store id
  rw [beginRead_of_none crud rfl, h] at hrun
  rw [hrun]
  exact ⟨_, rfl, rfl, crud.finishRead_empty id found⟩

/-- If there is only one row, a read answers with the entity in it if the row agrees with the
columns of the key, and otherwise with nothing. -/
theorem freshRead_of_row (type : EntityType) {row : Row} {e : α}
    (hrows : (store.table identity.schema.table).rows = [row])
    (he : Entity.ofRow (.obj row) = .ok e) (id : String) :
    let run := freshRead type identity id store
    ∃ answer, run.1.1 = .ok answer ∧ run.2 = store ∧
      answer.map run.1.2.entity? =
        if row.agrees (identity.idFields id) then some (some e) else none := by
  obtain ⟨answer, hok, hstore, hanswer⟩ :=
    freshRead_of_ok type (readEntities_of_row hrows he id)
  refine ⟨answer, hok, hstore, hanswer.trans ?_⟩
  cases row.agrees (identity.idFields id) with
  | false => rfl
  | true =>
    -- the key of the answer is the key of the entity, whether or not it was asked for
    have hkey : (declared type identity).answerKey? id [e] =
        some ((declared type identity).keyOf e) := by
      by_cases hsame : (declared type identity).keyOf e = id
      · exact (if_pos ⟨e, List.mem_singleton_self e, hsame⟩).trans (congrArg some hsame.symm)
      · exact if_neg (by simpa using hsame)
    change ((declared type identity).answerKey? id [e]).map _ = some (some e)
    rw [hkey]
    simp [lastOf]

/-- A read of rows that cannot be read as entities fails. -/
theorem freshRead_of_error (type : EntityType) {cause : ResourceError}
    (h : readEntities identity (some id) store = .error cause) :
    (freshRead type identity id store).1.1 =
      .error ((declared type identity).failure .read cause.message) := by
  rw [freshRead, run_read_stored, beginRead_of_none _ rfl, h]
  rfl

end Crud

end Reconcile
