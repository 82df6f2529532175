import Reconcile.Memo.Basic

/-!
# Remembered calls, phase by phase

What a call on one side of an entity type does to the cache before and after it asks the backend.
A call is split at the point where the backend is asked, because other calls may run in between:
the backend may itself read other entities, and several calls may be under way at once.

* **Creating** reserves a slot for the key of every input (`Crud.reserveAll`). When the backend
  fails, exactly the reservations of this call are undone (`Crud.rollBack`). When it answers, each
  created entity is settled into the record reserved for it, which moves to another slot if the
  entity got a new key (`Crud.settle`).
* **Reading a key** answers from the memo when its slot is taken, also by a placeholder; otherwise
  it reserves the slot while the backend is asked (`Crud.beginRead`), and vacates it again when the
  backend fails (`Crud.abandonRead`) or does not know the key (`Crud.finishRead`).
* **Listing and updating** merge what the backend answers (`Crud.mergeAll`).
* **Deleting** vacates the slots of the keys that the inputs had before the call
  (`Crud.evictAll`).
-/

namespace Reconcile

/-- One side of an entity type, with the function that gives entities their keys. -/
structure Crud (α : Type) where
  type : EntityType
  side : Side
  keyOf : α → String

namespace Crud

variable {α : Type} (crud : Crud α)

/-- Merges entities, each under its own key, and lists their records. -/
def mergeAll : List α → Cache α → List Handle × Cache α
  | [], c => ([], c)
  | e :: es, c =>
    let (h, c) := c.merge crud.side crud.type (crud.keyOf e) e
    let (hs, c) := mergeAll es c
    (h :: hs, c)

/-! ### Creating -/

/-- The slot reserved for one input of a create call. -/
structure Reserved where
  key : String
  record : Handle
  /-- The slot was vacant before this call reserved it. -/
  fresh : Bool
deriving DecidableEq, Repr

/-- Reserves a slot for every input. A slot that was vacant is filled with the input at once; one
that was taken is left alone until the backend has answered. -/
def reserveAll : List α → Cache α → List Reserved × Cache α
  | [], c => ([], c)
  | e :: es, c =>
    let key := crud.keyOf e
    let (r, c) := c.reserve crud.side crud.type key
    let c := if r.fresh then c.fill r.record e else c
    let (rs, c) := reserveAll es c
    (⟨key, r.record, r.fresh⟩ :: rs, c)

/-- Vacates the slots that a create call reserved, if they still hold the records it put there. -/
def rollBack (reserved : List Reserved) (c : Cache α) : Cache α :=
  reserved.foldl
    (fun c r => if r.fresh then c.evictRecord crud.side r.key r.record else c) c

/-- **Settling**: merges a created entity back into the record reserved for it. When the entity
got another key than its input, the record leaves its old slot; if the slot of the new key holds
another record already, that record is the entity's, and the reserved one is filled with the same
entity for those who hold it. -/
def settle (r : Reserved) (e : α) (c : Cache α) : Handle × Cache α :=
  let key := crud.keyOf e
  let (held, c) := c.mergeInto crud.side crud.type key (some r.record) e
  if key = r.key then (held, c)
  else
    let c := c.evictRecord crud.side r.key r.record
    if held = r.record then (held, c)
    else match c.records.value? held with
      | some latest => (held, c.fill r.record latest)
      | none => (held, c)

/-- Settles the created entities one after the other, each into the record reserved at its
place. -/
def settleAll : List Reserved → List α → Cache α → List Handle × Cache α
  | r :: rs, e :: es, c =>
    let (h, c) := crud.settle r e c
    let (hs, c) := settleAll rs es c
    (h :: hs, c)
  | _, _, c => ([], c)

/-- Takes in the answer of a create call. An empty answer means the inputs as they are; an answer
of another length than the inputs is merged without regard to them. -/
def finishCreate (reserved : List Reserved) (created : List α) (c : Cache α) :
    List Handle × Cache α :=
  if created.isEmpty then (reserved.map (·.record), c)
  else if created.length = reserved.length then crud.settleAll reserved created c
  else crud.mergeAll created c

/-! ### Reading -/

/-- How the read of a key begins. -/
inductive ReadStart where
  /-- The slot of the key is taken, and its record is the answer. -/
  | known (record : Handle)
  /-- The slot was vacant. It holds this placeholder while the backend is asked. -/
  | asked (placeholder : Handle)
deriving DecidableEq, Repr

/-- Begins the read of a key. -/
def beginRead (key : String) (c : Cache α) : ReadStart × Cache α :=
  let (r, c) := c.reserve crud.side crud.type key
  (if r.fresh then .asked r.record else .known r.record, c)

/-- Ends the read of a key whose backend failed. -/
def abandonRead (key : String) (placeholder : Handle) (c : Cache α) : Cache α :=
  c.evictRecord crud.side key placeholder

/-- What the entities found so far say about the key that was asked for. -/
structure Sighting where
  /-- The record of the last entity found under the key itself. -/
  hit : Option Handle
  /-- The record of the first entity found under any other key. -/
  other : Option Handle
deriving DecidableEq, Repr

/-- Merges the entities that the backend found for a key. Those under the key itself go into the
placeholder, as long as it still has the slot. -/
def sight (key : String) (placeholder : Handle) :
    List α → Sighting → Cache α → Sighting × Cache α
  | [], seen, c => (seen, c)
  | e :: es, seen, c =>
    let found := crud.keyOf e
    if found = key then
      let (h, c) := c.mergeInto crud.side crud.type key (some placeholder) e
      sight key placeholder es { seen with hit := some h } c
    else
      let (h, c) := c.merge crud.side crud.type found e
      sight key placeholder es { seen with other := some (seen.other.getD h) } c

/-- Ends the read of a key for which the backend found the given entities. The answer is the record
of the key, or else the record of the first entity found, and the placeholder leaves its slot
unless an entity of the key was found. -/
def finishRead (key : String) (placeholder : Handle) (found : List α) (c : Cache α) :
    Option Handle × Cache α :=
  let (seen, c) := crud.sight key placeholder found ⟨none, none⟩ c
  match seen.hit with
  | some h => (some h, c)
  | none => (seen.other, c.evictRecord crud.side key placeholder)

/-! ### Deleting -/

/-- Vacates the slots of the given keys. -/
def evictAll (keys : List String) (c : Cache α) : Cache α :=
  keys.foldl (fun c key => c.evict crud.side crud.type key) c

end Crud

end Reconcile
