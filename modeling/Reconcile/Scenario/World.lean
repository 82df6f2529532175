import Reconcile.Crud.Call
import Reconcile.Scenario.Spec
import Reconcile.Store.Backend

/-!
# Scripted backends at work

The world in which scripted mappers run: what the provider holds live for every type and side, the
store, the cache of the current context, and a log of the calls that reached a backend.

A scripted backend logs every call and then fails if it was told to. Otherwise it answers with the
next scripted result, if one is queued, or from what is live. The rows that it reads may refer to
other entities; each of these is read through the cache before the call returns, so calls nest as
deep as references lead. The depth is bounded by the fuel of `readReference`; a run that needs more
has no result.
-/

namespace Reconcile.Scenario

/-- What a provider holds of one type on one side, and how it will answer. -/
structure Holding where
  live : List Json
  /-- How many entities were created so far. -/
  counter : Nat
  /-- The operations that fail, each with its message. -/
  failing : Keyed Operation String
  /-- The results that are queued for an operation. -/
  scripted : Keyed Operation (List (List Json))
deriving Inhabited

namespace Holding

/-- The holding in which nothing is live and nothing is scripted. -/
def empty : Holding := ⟨[], 0, Keyed.empty, Keyed.empty⟩

/-- Queues a result for an operation. -/
def queue (operation : Operation) (result : List Json) (h : Holding) : Holding :=
  let results := (h.scripted.find? operation).getD []
  { h with scripted := h.scripted.put operation (results ++ [result]) }

/-- Takes the next scripted result of an operation, if there is one. -/
def next? (operation : Operation) (h : Holding) : Option (List Json) × Holding :=
  match h.scripted.find? operation with
  | some (result :: results) =>
    (some result, { h with scripted := h.scripted.put operation results })
  | _ => (none, h)

/-- Makes an operation fail with a message, or makes it succeed again. -/
def setFailure (operation : Operation) (message : Option String) (h : Holding) : Holding :=
  match message with
  | some text => { h with failing := h.failing.put operation text }
  | none => { h with failing := h.failing.erase operation }

end Holding

/-- The inputs of a logged call. -/
inductive CallKeys where
  /-- The keys of the inputs. -/
  | inputs (keys : List String)
  /-- The key asked for, or none for a listing. -/
  | lookup (key : Option String)
deriving DecidableEq, Repr

/-- What became of the record that a reference leads to. -/
inductive Seen where
  | missing
  | placeholder
  | filled
deriving DecidableEq, Repr

/-- An entry of the log. -/
inductive LogEntry where
  /-- A call reached a backend. -/
  | call (operation : Operation) (type : EntityType) (side : Side) (keys : CallKeys)
  /-- A backend resolved a reference. -/
  | reference (target : EntityType) (key : String) (seen : Seen)
deriving DecidableEq, Repr

/-- Everything that a call can touch. -/
structure World where
  mappers : Keyed EntityType ScriptedMapper
  holdings : Keyed (EntityType × Side) Holding
  store : Store
  /-- The cache of the current context. -/
  cache : Cache Json
  log : List LogEntry

namespace World

/-- What is held of a type on one side. -/
def holding (w : World) (type : EntityType) (side : Side) : Holding :=
  (w.holdings.find? (type, side)).getD Holding.empty

/-- Replaces what is held of a type on one side. -/
def setHolding (type : EntityType) (side : Side) (h : Holding) (w : World) : World :=
  { w with holdings := w.holdings.put (type, side) h }

/-- Appends an entry to the log. -/
def note (entry : LogEntry) (w : World) : World :=
  { w with log := w.log ++ [entry] }

/-- A depth that suffices for nested reads: the number of references that can be followed from
rows that are live or scripted, and from the given inputs, squared. -/
def depthBound (w : World) (inputs : Nat) : Nat :=
  let rows := w.holdings.values.foldl (fun n h =>
    h.scripted.values.flatten.foldl (fun n rows => n + rows.length + 1) (n + h.live.length)) 0
  let references := w.mappers.values.foldl (fun n m => n + m.cloud.references.length) 0
  let followed := (rows + inputs + 1) * (references + 1)
  followed * followed

end World

/-- A run in the world. It has no result when references lead deeper than the bound. -/
abbrev Run := StateT World Option

instance : MonadStateOf (Cache Json) Run where
  get := do return (← getThe World).cache
  set c := modifyThe World fun w => { w with cache := c }
  modifyGet f := modifyGetThe World fun w =>
    let (a, c) := f w.cache
    (a, { w with cache := c })

instance : MonadStateOf Store Run where
  get := do return (← getThe World).store
  set s := modifyThe World fun w => { w with store := s }
  modifyGet f := modifyGetThe World fun w =>
    let (a, s) := f w.store
    (a, { w with store := s })

/-- The remembered side of a mapper. -/
def crudOf (m : ScriptedMapper) (side : Side) : Crud Json :=
  ⟨m.type, side, m.identity.entityId⟩

/-- Changes what is held of a type on one side. -/
def onHolding (type : EntityType) (side : Side) (f : Holding → β × Holding) : Run β :=
  modifyGetThe World fun w =>
    let (b, h) := f (w.holding type side)
    (b, w.setHolding type side h)

/-- Logs a call, and fails if the operation was told to. -/
def announce (m : ScriptedMapper) (side : Side) (operation : Operation) (keys : CallKeys) :
    Run (Except String Unit) := do
  modifyThe World (World.note (.call operation m.type side keys))
  match ((← getThe World).holding m.type side).failing.find? operation with
  | some message => return .error message
  | none => return .ok ()

/-- The record that a reference leads to, by side, type and key; an error if it cannot be read. -/
abbrev Resolver := Side → EntityType → String → Run (Except String Unit)

/-- Resolves the references of a row, in order. The first that fails ends the call. -/
def resolveRow (resolve : Resolver) (side : Side) (row : Json) :
    List Reference → Run (Except String Unit)
  | [] => return .ok ()
  | r :: rs => do
    match r.keyIn? row with
    | none => resolveRow resolve side row rs
    | some key =>
      match ← resolve side r.target key with
      | .error e => return .error e
      | .ok () => resolveRow resolve side row rs

/-- Resolves the references of all rows, in order. -/
def resolveRows (resolve : Resolver) (side : Side) (references : List Reference) :
    List Json → Run (Except String Unit)
  | [] => return .ok ()
  | row :: rows => do
    match ← resolveRow resolve side row references with
    | .error e => return .error e
    | .ok () => resolveRows resolve side references rows

/-- Replaces every occurrence of `{n}` in a template by a number. -/
def fillTemplate (template : String) (n : Nat) : String :=
  String.intercalate (toString n)
    ((ColumnKey.mk [] "\x7bn\x7d").split template)

/-- Fills in the assigned columns of a new entity that are missing or null. -/
def assign (spec : BackendSpec) (n : Nat) (e : Json) : Json :=
  spec.assign.foldl
    (fun e (column, template) =>
      if (e.fieldOrNull column).isNull then e.put column (.str (fillTemplate template n)) else e) e

/-- Creates entities one after the other, each with the next number. -/
def Holding.createAll (spec : BackendSpec) : List Json → Holding → List Json × Holding
  | [], h => ([], h)
  | e :: es, h =>
    let n := h.counter + 1
    let e := assign spec n e
    let (rest, h) := createAll spec es { h with counter := n, live := h.live ++ [e] }
    (e :: rest, h)

/-- Replaces the first live entity that has the key of the given one. -/
def replaceLive (keyOf : Json → String) (e : Json) : List Json → List Json
  | [] => []
  | other :: rest =>
    if keyOf other = keyOf e then e :: rest else other :: replaceLive keyOf e rest

/-- The second half of a read: what the backend finds, with all references resolved. -/
def fetch (resolve : Resolver) (m : ScriptedMapper) (side : Side) (spec : BackendSpec)
    (key : Option String) : Run (Except String (List Json)) := do
  let scripted ← onHolding m.type side (Holding.next? .read)
  let live := ((← getThe World).holding m.type side).live
  let found := scripted.getD (live.filter fun e =>
    match key with
    | some key => m.identity.entityId e == key
    | none => true)
  return (← resolveRows resolve side spec.references found).map fun () => found

/-- The scripted backend of a mapper on one side. -/
def scriptedBackend (resolve : Resolver) (m : ScriptedMapper) (side : Side)
    (spec : BackendSpec) : Backend Run Json where
  create inputs := do
    match ← announce m side .create (.inputs (inputs.map m.identity.entityId)) with
    | .error e => return .error e
    | .ok () =>
      let references := if spec.resolveInputs then spec.references else []
      match ← resolveRows resolve side references inputs with
      | .error e => return .error e
      | .ok () =>
        match ← onHolding m.type side (Holding.next? .create) with
        | some result => return .ok result
        | none => return .ok (← onHolding m.type side (Holding.createAll spec inputs))
  read key := do
    match ← announce m side .read (.lookup key) with
    | .error e => return .error e
    | .ok () => fetch resolve m side spec key
  update inputs := do
    match ← announce m side .update (.inputs (inputs.map m.identity.entityId)) with
    | .error e => return .error e
    | .ok () =>
      match ← onHolding m.type side (Holding.next? .update) with
      | some result => return .ok result
      | none =>
        onHolding m.type side fun h =>
          (.ok inputs, { h with
            live := inputs.foldl (fun live e => replaceLive m.identity.entityId e live) h.live })
  delete inputs := do
    let keys := inputs.map m.identity.entityId
    match ← announce m side .delete (.inputs keys) with
    | .error e => return .error e
    | .ok () =>
      onHolding m.type side fun h =>
        (.ok (), { h with live := h.live.filter fun e => ! keys.contains (m.identity.entityId e) })

/-- The scripted backend that serves one side of a mapper, unless the store does. -/
def scriptFor? (m : ScriptedMapper) : Side → Option BackendSpec
  | .cloud => some m.cloud
  | .db =>
    match m.db with
    | .own spec => some spec
    | .store => none

/-- The backend that serves one side of a mapper. -/
def backendOf (resolve : Resolver) (m : ScriptedMapper) (side : Side) : Backend Run Json :=
  match scriptFor? m side with
  | some spec => scriptedBackend resolve m side spec
  | none => Store.backend m.identity

/-- **Nested reads**: reads the entity that a reference leads to through the cache, with at most
`fuel` reads inside each other, and logs what became of its record. -/
def readReference : Nat → Resolver
  | 0, _, _, _ => fun _ => none
  | fuel + 1, side, type, key => do
    match (← getThe World).mappers.find? type with
    | none => return .error ("no mapper for " ++ type.name)
    | some m =>
      match ← (crudOf m side).read (backendOf (readReference fuel) m side) key with
      | .error e => return .error e.message
      | .ok found =>
        let records := (← getThe World).cache.records
        let seen := match found with
          | none => Seen.missing
          | some h => if records.isPlaceholder h then .placeholder else .filled
        modifyThe World (World.note (.reference type key seen))
        return .ok ()

end Reconcile.Scenario
