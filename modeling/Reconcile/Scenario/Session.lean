import Reconcile.Scenario.World

/-!
# Sessions

A session runs steps against scripted mappers and tells what became visible after each: the answer
of the step, the calls that reached a backend, the records that are new or have changed, and the
sizes of the memo.

* **Contexts**: every step runs in one of any number of contexts. Each has a memo of its own; the
  store and the backends are shared.
* **Record numbers**: a record gets the next number when an operation first answers with it. In a
  list of records the numbers are given in the order of the list.
* **Concurrent reads** run up to the point where their backend is waited for, each in turn, and are
  then carried to their end, in the same order. None of them begins unless all their types have
  mappers.
-/

namespace Reconcile.Scenario

/-- The inputs of a call: entities, and the entities in records of the given numbers. -/
structure Inputs where
  entities : List Json
  records : List Nat
deriving Inhabited

/-- A step on one side of a type. -/
inductive SideStep where
  | seed (rows : List Json)
  | live
  | fail (operation : Operation) (message : Option String)
  | script (operation : Operation) (result : List Json)
  | create (inputs : Inputs)
  | update (inputs : Inputs)
  | delete (inputs : Inputs)
  | read (key : String)
  | readAll
  | merge (key : String) (entity : Json)
  | evict (key : String)
  | get (key : String)
  | contains (key : String)
  | count
  | entries
  | strategy (prev next : Json)
  | entityId (entity : Json)

/-- A step on a type. -/
inductive TypeStep where
  | entityId (entity : Json)
  | idFields (id : String)
  | generateId (fields : IdFields)
  | equals (a b : Json)
  | changes (a b : Json)
  | updateOrReplace (prev next : Json)
  | mapper
  | newRecord (entity : Json)
  | modify (record : Nat) (fields : Fields Json)
  | inspect (record : Nat)
  | storeRows (filter : IdFields)
  | onSide (side : Side) (step : SideStep)

/-- A step of a session. -/
inductive Step where
  | readConcurrent (reads : List (EntityType × Side × String))
  | flush (side : Side)
  | isEmpty
  | describe
  | onType (type : EntityType) (step : TypeStep)

/-- Why a step has no answer. -/
inductive StepError where
  | resource (error : ResourceError)
  /-- The type of the step has no mapper. -/
  | noMapper
  /-- References lead deeper than any run follows them. -/
  | tooDeep

/-- The answer of a step. Records are given by their numbers. -/
inductive Answer where
  | nothing
  | error (error : StepError)
  | flag (value : Bool)
  | count (value : Nat)
  | text (value : String)
  | rows (values : List Json)
  | record (number : Option Nat)
  | records (numbers : List Nat)
  /-- The answers of concurrent reads. -/
  | reads (results : List (Except ResourceError (Option Nat)))
  | fields (value : IdFields)
  | changes (value : Changes)
  | strategy (value : UpdateStrategy)
  | mapper (value : ScriptedMapper)
  /-- Whether a record is a placeholder, and the key of its entity. -/
  | inspected (placeholder : Bool) (key : Option String)
  | keyOnSide (side : Side) (key : String)
  /-- The shown forms of the memo and of all known records. -/
  | description (memo records : List String)

/-- What is visible after a step. -/
structure Outcome where
  answer : Answer
  log : List LogEntry
  /-- The records that are new or have changed, with their entities. -/
  records : List (Nat × Option Json)
  /-- The sizes of the memo that are not zero. -/
  sizes : List (Side × String × Nat)

/-- The state of a session between two steps. -/
structure Session where
  mappers : Keyed EntityType ScriptedMapper
  holdings : Keyed (EntityType × Side) Holding
  store : Store
  records : Records Json
  /-- The memos of the contexts. -/
  memos : Keyed Nat Memo
  /-- The known records by their numbers, each with the entity that was last shown. The outer
  option tells the records that were never shown. -/
  known : List (Handle × Option (Option Json))

namespace Session

/-- A session with the mappers of the given types, and what came of building each of them. -/
def start (specs : List TypeSpec) : Session × List (Except ResourceError ScriptedMapper) :=
  let built := specs.map TypeSpec.mapper
  let mappers := built.foldl
    (fun mappers result =>
      match result with
      | .ok m => mappers.put m.type m
      | .error _ => mappers) Keyed.empty
  (⟨mappers, Keyed.empty, Store.empty, Records.empty, Keyed.empty, []⟩, built)

/-- The world of a step in a context. -/
def world (s : Session) (context : Nat) : World :=
  let memo := (s.memos.find? context).getD Memo.empty
  ⟨s.mappers, s.holdings, s.store, ⟨s.records, memo⟩, []⟩

/-- The session after a step in a context has left the given world behind. -/
def ofWorld (s : Session) (context : Nat) (w : World) : Session :=
  { s with
    holdings := w.holdings
    store := w.store
    records := w.cache.records
    memos := s.memos.put context w.cache.memo }

/-- The number of a record, which is new if the record was not known. -/
def number (h : Handle) (s : Session) : Nat × Session :=
  match s.known.findIdx? (fun known => decide (known.1 = h)) with
  | some n => (n, s)
  | none => (s.known.length, { s with known := s.known ++ [(h, none)] })

/-- The numbers of records, in the order of the list. -/
def numberAll : List Handle → Session → List Nat × Session
  | [], s => ([], s)
  | h :: hs, s =>
    let (n, s) := s.number h
    let (ns, s) := numberAll hs s
    (n :: ns, s)

/-- The number of a record that may be absent. -/
def numberOption (h : Option Handle) (s : Session) : Option Nat × Session :=
  match h with
  | none => (none, s)
  | some h =>
    let (n, s) := s.number h
    (some n, s)

/-- The record of a number, provided that it is of the type. -/
def record? (s : Session) (type : EntityType) (n : Nat) : Option Handle :=
  (s.known[n]?.map Prod.fst).filter fun h => decide (h.type = type)

/-- The entities that inputs stand for. Numbers of unknown records, of records of other types and
of placeholders are passed over. -/
def inputs (s : Session) (type : EntityType) (i : Inputs) : List Json :=
  i.entities ++ i.records.filterMap fun n => (s.record? type n).bind s.records.value?

/-- The known records that have changed since they were last shown, and the session in which all
known records have been shown. -/
def showRecords (s : Session) : List (Nat × Option Json) × Session :=
  let current := s.known.map fun (h, last) => (h, s.records.value? h, last)
  let changed := current.zipIdx.filterMap fun ((_, now, last), n) =>
    if last == some now then none else some (n, now)
  (changed, { s with known := current.map fun (h, now, _) => (h, some now) })

end Session

/-- The sizes of a memo that are not zero, by side and kind. -/
def memoSizes (m : Memo) : List (Side × String × Nat) :=
  let kinds := ((m.slots.keys.map (·.kind)).eraseDups).mergeSort (fun a b => a ≤ b)
  [Side.cloud, Side.db].flatMap fun side =>
    (kinds.map fun kind => (side, kind, m.count side kind)).filter fun (_, _, n) => n != 0

/-- The shown form of a record. -/
def shownRecord (entity : Option Json) : String :=
  "Record(" ++ (match entity with
    | some e => e.render
    | none => "<placeholder>") ++ ")"

/-! ### Concurrent reads -/

/-- A concurrent read that has begun. -/
inductive Begun where
  | ended (result : Except ResourceError (Option Handle))
  /-- The backend is waited for. -/
  | waiting (mapper : ScriptedMapper) (spec : BackendSpec) (side : Side) (key : String)
    (placeholder : Handle)

/-- Runs a read up to the point where its backend is waited for. The store never is. -/
def beginConcurrent (resolve : Resolver) (m : ScriptedMapper) (side : Side) (key : String) :
    Run Begun := do
  let crud := crudOf m side
  match scriptFor? m side with
  | none => return .ended (← crud.read (backendOf resolve m side) key)
  | some spec =>
    match ← modifyGetThe (Cache Json) (crud.beginRead key) with
    | .known h => return .ended (.ok (some h))
    | .asked placeholder =>
      match ← announce m side .read (.lookup (some key)) with
      | .ok () => return .waiting m spec side key placeholder
      | .error cause =>
        modifyThe (Cache Json) (crud.abandonRead key placeholder)
        return .ended (.error (crud.failure .read cause))

/-- Carries a read to its end. -/
def endConcurrent (resolve : Resolver) : Begun → Run (Except ResourceError (Option Handle))
  | .ended result => return result
  | .waiting m spec side key placeholder => do
    let crud := crudOf m side
    match ← fetch resolve m side spec (some key) with
    | .error cause =>
      modifyThe (Cache Json) (crud.abandonRead key placeholder)
      return .error (crud.failure .read cause)
    | .ok found => return .ok (← modifyGetThe (Cache Json) (crud.finishRead key placeholder found))

/-- Runs reads concurrently. -/
def readConcurrently (resolve : Resolver) (reads : List (ScriptedMapper × Side × String)) :
    Run (List (Except ResourceError (Option Handle))) := do
  let begun ← reads.mapM fun (m, side, key) => beginConcurrent resolve m side key
  begun.mapM (endConcurrent resolve)

/-! ### Steps -/

namespace Session

/-- Runs an action in a context. When it has no result, the session stays as it was. -/
def perform (s : Session) (context : Nat) (action : Run β) :
    Option β × List LogEntry × Session :=
  match action (s.world context) with
  | some (b, w) => (some b, w.log, s.ofWorld context w)
  | none => (none, [], s)

/-- Changes the cache of a context. -/
def onCache (s : Session) (context : Nat) (f : Cache Json → β × Cache Json) : β × Session :=
  let w := s.world context
  let (b, c) := f w.cache
  (b, s.ofWorld context { w with cache := c })

/-- Runs a call that answers with records. -/
def callForRecords (s : Session) (context : Nat)
    (call : Run (Except ResourceError (List Handle))) : Answer × List LogEntry × Session :=
  match s.perform context call with
  | (none, log, s) => (.error .tooDeep, log, s)
  | (some (.error e), log, s) => (.error (.resource e), log, s)
  | (some (.ok hs), log, s) =>
    let (ns, s) := s.numberAll hs
    (.records ns, log, s)

/-- Reads by their mappers, if all their types have one. -/
def planReads? (s : Session) (reads : List (EntityType × Side × String)) :
    Option (List (ScriptedMapper × Side × String)) :=
  reads.mapM fun (type, side, key) => (s.mappers.find? type).map fun m => (m, side, key)

/-- Runs reads that are planned, concurrently. -/
def callReads (s : Session) (context : Nat) (reads : List (ScriptedMapper × Side × String)) :
    Answer × List LogEntry × Session :=
  let resolve := readReference ((s.world context).depthBound 0)
  match s.perform context (readConcurrently resolve reads) with
  | (none, log, s) => (.error .tooDeep, log, s)
  | (some results, log, s) =>
    let (results, s) := results.foldl
      (fun (done, s) result =>
        match result with
        | .error e => (done ++ [.error e], s)
        | .ok h =>
          let (n, s) := s.numberOption h
          (done ++ [.ok n], s))
      (([] : List (Except ResourceError (Option Nat))), s)
    (.reads results, log, s)

/-- The records of a type on one side: the known ones by their numbers, then the others in the
order of the text of their entities. -/
def entries (s : Session) (context : Nat) (type : EntityType) (side : Side) : List Handle :=
  let c := (s.world context).cache
  let held := c.entries side type
  let isKnown (h : Handle) := s.known.any fun known => decide (known.1 = h)
  let known := (s.known.map Prod.fst).filter held.contains
  let text (h : Handle) := ((c.records.value? h).map Json.render).getD ""
  known ++ (held.filter fun h => ! isKnown h).mergeSort fun a b => text a ≤ text b

/-- Runs a step on one side of a type. -/
def sideStep (s : Session) (context : Nat) (m : ScriptedMapper) (side : Side) :
    SideStep → Answer × List LogEntry × Session
  | .seed rows =>
    let h := (s.world context).holding m.type side
    let h := { h with live := h.live ++ rows }
    (.count h.live.length, [], s.ofWorld context ((s.world context).setHolding m.type side h))
  | .live => (.rows ((s.world context).holding m.type side).live, [], s)
  | .fail operation message =>
    let w := s.world context
    let h := (w.holding m.type side).setFailure operation message
    (.nothing, [], s.ofWorld context (w.setHolding m.type side h))
  | .script operation result =>
    let w := s.world context
    let h := (w.holding m.type side).queue operation result
    (.nothing, [], s.ofWorld context (w.setHolding m.type side h))
  | .create inputs =>
    let entities := s.inputs m.type inputs
    let backend := backendOf (resolver s context entities.length) m side
    s.callForRecords context ((crudOf m side).create backend entities)
  | .update inputs =>
    let entities := s.inputs m.type inputs
    let backend := backendOf (resolver s context 0) m side
    s.callForRecords context ((crudOf m side).update backend entities)
  | .delete inputs =>
    let entities := s.inputs m.type inputs
    let backend := backendOf (resolver s context 0) m side
    match s.perform context ((crudOf m side).delete backend entities) with
    | (none, log, s) => (.error .tooDeep, log, s)
    | (some (.error e), log, s) => (.error (.resource e), log, s)
    | (some (.ok ()), log, s) => (.nothing, log, s)
  | .read key =>
    let backend := backendOf (resolver s context 0) m side
    match s.perform context ((crudOf m side).read backend key) with
    | (none, log, s) => (.error .tooDeep, log, s)
    | (some (.error e), log, s) => (.error (.resource e), log, s)
    | (some (.ok h), log, s) =>
      let (n, s) := s.numberOption h
      (.record n, log, s)
  | .readAll =>
    let backend := backendOf (resolver s context 0) m side
    s.callForRecords context ((crudOf m side).readAll backend)
  | .merge key entity =>
    let (h, s) := s.onCache context (Cache.merge side m.type key entity)
    let (n, s) := s.number h
    (.record (some n), [], s)
  | .evict key =>
    let ((), s) := s.onCache context fun c => ((), c.evict side m.type key)
    (.nothing, [], s)
  | .get key =>
    let (n, s) := s.numberOption ((s.world context).cache.memo.find? side m.type key)
    (.record n, [], s)
  | .contains key =>
    (.flag ((s.world context).cache.memo.find? side m.type key).isSome, [], s)
  | .count => (.count ((s.world context).cache.memo.count side m.type.kind), [], s)
  | .entries =>
    let (ns, s) := s.numberAll (s.entries context m.type side)
    (.records ns, [], s)
  | .strategy prev next => (.strategy (m.updateOrReplace (judge m) side prev next), [], s)
  | .entityId entity => (.keyOnSide side (m.identity.entityId entity), [], s)
where
  /-- The resolver of references, with a depth that suffices. -/
  resolver (s : Session) (context inputs : Nat) : Resolver :=
    readReference ((s.world context).depthBound inputs)

/-- Runs a step on a type. -/
def typeStep (s : Session) (context : Nat) (m : ScriptedMapper) :
    TypeStep → Answer × List LogEntry × Session
  | .entityId entity => (.text (m.identity.entityId entity), [], s)
  | .idFields id => (.fields (m.identity.idFields id), [], s)
  | .generateId fields =>
    match m.identity.generateId m.kind fields with
    | .ok id => (.text id, [], s)
    | .error e => (.error (.resource e), [], s)
  | .equals a b => (.flag (m.comparison.same a b), [], s)
  | .changes a b => (.changes (m.comparison.diff a b), [], s)
  | .updateOrReplace prev next =>
    (.strategy (m.updateOrReplace (judge m) .cloud prev next), [], s)
  | .mapper => (.mapper m, [], s)
  | .newRecord entity =>
    let (h, records) := s.records.add m.type (some entity)
    let (n, s) := { s with records := records }.number h
    (.record (some n), [], s)
  | .modify n fields =>
    match s.record? m.type n with
    | none => (.nothing, [], s)
    | some h =>
      let change (e : Json) := fields.foldl (fun e (name, value) => e.put name value) e
      (.flag (! s.records.isPlaceholder h), [], { s with records := s.records.modify h change })
  | .inspect n =>
    match s.record? m.type n with
    | none => (.nothing, [], s)
    | some h =>
      let key := (s.records.value? h).map m.identity.entityId
      (.inspected (s.records.isPlaceholder h) key, [], s)
  | .storeRows filter => (.rows (s.store.find m.identity.schema filter), [], s)
  | .onSide side step => s.sideStep context m side step

/-- Runs a step in a context, and answers with what became visible. -/
def step (s : Session) (context : Nat) (what : Step) : Outcome × Session :=
  let (answer, log, s) : Answer × List LogEntry × Session :=
    match what with
    | .readConcurrent reads =>
      match s.planReads? reads with
      | none => (.error .noMapper, [], s)
      | some reads => s.callReads context reads
    | .flush side =>
      let ((), s) := s.onCache context fun c => ((), c.flush side)
      (.nothing, [], s)
    | .isEmpty => (.flag (s.world context).cache.memo.isEmpty, [], s)
    | .describe =>
      let sizes := (memoSizes (s.world context).cache.memo).map fun (side, kind, n) =>
        Text.quoted (side.text ++ "." ++ kind) ++ ": " ++ toString n
      let records := s.known.map fun (h, _) => shownRecord (s.records.value? h)
      (.description (sizes.mergeSort fun a b => a ≤ b) records, [], s)
    | .onType type step =>
      match s.mappers.find? type with
      | none => (.error .noMapper, [], s)
      | some m => s.typeStep context m step
  let (records, s) := s.showRecords
  (⟨answer, log, records, memoSizes (s.world context).cache.memo⟩, s)

/-- Runs steps one after the other, each in its context. -/
def run (s : Session) : List (Nat × Step) → List Outcome
  | [] => []
  | (context, what) :: rest =>
    let (outcome, s) := s.step context what
    outcome :: run s rest

end Session

end Reconcile.Scenario
