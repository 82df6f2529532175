import Reconcile.Action
import Reconcile.Keyed
import Reconcile.Memo.Record

/-!
# The memo

What has been read during one run, so that an entity is fetched once and everyone who asked for it
shares one record. A slot of the memo is a side, a kind and a key; it holds the handle of a record.
Types that share a kind share its slots: to a type, a slot that holds a record of another type is
as good as vacant, and is taken over when it is written.

A `Cache` is a memo with the records that its slots refer to. Its operations are the only ones
that change a memo:

* `Cache.reserve` parks a placeholder in a vacant slot.
* `Cache.merge` and `Cache.mergeInto` store an entity **in place**: the record that the slot
  already holds is filled, and only a vacant slot gets a record.
* `Cache.evict` and `Cache.evictRecord` vacate a slot, the latter only while the slot still holds
  the given record.
-/

namespace Reconcile

/-- A place for one record in the memo. -/
structure Slot where
  side : Side
  kind : String
  key : String
deriving DecidableEq, Repr

/-- The slots that are taken, with the records in them. -/
structure Memo where
  slots : Keyed Slot Handle

namespace Memo

/-- The memo in which every slot is vacant. -/
def empty : Memo := ⟨Keyed.empty⟩

instance : Inhabited Memo := ⟨empty⟩

/-- The slot of a key of an entity type. -/
def slot (side : Side) (type : EntityType) (key : String) : Slot :=
  ⟨side, type.kind, key⟩

/-- The record in the slot of a key, provided that it is of the type. -/
def find? (m : Memo) (side : Side) (type : EntityType) (key : String) : Option Handle :=
  (m.slots.find? (slot side type key)).filter fun h => decide (h.type = type)

/-- Puts a record into the slot of a key. -/
def put (m : Memo) (side : Side) (key : String) (h : Handle) : Memo :=
  ⟨m.slots.put (slot side h.type key) h⟩

/-- Vacates the slot of a key, whatever it holds. -/
def evict (m : Memo) (side : Side) (type : EntityType) (key : String) : Memo :=
  ⟨m.slots.erase (slot side type key)⟩

/-- Vacates the slot of a key if it holds the given record. -/
def evictRecord (m : Memo) (side : Side) (key : String) (h : Handle) : Memo :=
  if m.slots.find? (slot side h.type key) = some h then m.evict side h.type key else m

/-- The number of slots taken under a kind on one side. -/
def count (m : Memo) (side : Side) (kind : String) : Nat :=
  (m.slots.keep fun s => decide (s.side = side) && decide (s.kind = kind)).size

/-- Whether every slot is vacant. -/
def isEmpty (m : Memo) : Bool := m.slots.pairs.isEmpty

/-- Vacates all slots of one side. -/
def flush (m : Memo) (side : Side) : Memo :=
  ⟨m.slots.keep fun s => ! decide (s.side = side)⟩

/-- The records of a type on one side, each once. -/
def recordsOf (m : Memo) (side : Side) (type : EntityType) : List Handle :=
  let held := (m.slots.keep fun s => decide (s.side = side) && decide (s.kind = type.kind)).values
  (held.filter fun h => decide (h.type = type)).eraseDups

end Memo

/-- A memo and the records that its slots refer to. -/
structure Cache (α : Type) where
  records : Records α
  memo : Memo
deriving Inhabited

namespace Cache

variable {α : Type}

/-- The cache of a run that has not begun. -/
def empty : Cache α := ⟨Records.empty, Memo.empty⟩

/-- The outcome of a reservation. -/
structure Reservation where
  record : Handle
  /-- The slot was vacant, and the record is a placeholder made for it. -/
  fresh : Bool
deriving DecidableEq, Repr

/-- The record in the slot of a key, where a vacant slot gets a placeholder first. -/
def reserve (side : Side) (type : EntityType) (key : String) (c : Cache α) :
    Reservation × Cache α :=
  match c.memo.find? side type key with
  | some h => (⟨h, false⟩, c)
  | none =>
    let (h, records) := c.records.add type none
    (⟨h, true⟩, ⟨records, c.memo.put side key h⟩)

/-- The record that an entity is to be stored in under a key, in its slot: the one that is there,
or else the candidate, or else a new one. -/
def settleSlot (side : Side) (type : EntityType) (key : String) (candidate : Option Handle)
    (c : Cache α) : Handle × Cache α :=
  match c.memo.find? side type key, candidate with
  | some h, _ => (h, c)
  | none, some h => (h, ⟨c.records, c.memo.put side key h⟩)
  | none, none =>
    let (h, records) := c.records.add type none
    (h, ⟨records, c.memo.put side key h⟩)

/-- Fills a record of the cache. -/
def fill (h : Handle) (entity : α) (c : Cache α) : Cache α :=
  { c with records := c.records.fill h entity }

/-- **Merging**: stores an entity under a key, in the record that is there. A vacant slot takes the
candidate, so that whoever holds it already sees the entity. -/
def mergeInto (side : Side) (type : EntityType) (key : String) (candidate : Option Handle)
    (entity : α) (c : Cache α) : Handle × Cache α :=
  let (h, c) := c.settleSlot side type key candidate
  (h, c.fill h entity)

/-- Stores an entity under a key, in the record that is there or in a new one. -/
def merge (side : Side) (type : EntityType) (key : String) (entity : α) (c : Cache α) :
    Handle × Cache α :=
  c.mergeInto side type key none entity

/-- Vacates the slot of a key. -/
def evict (side : Side) (type : EntityType) (key : String) (c : Cache α) : Cache α :=
  { c with memo := c.memo.evict side type key }

/-- Vacates the slot of a key if it still holds the given record. -/
def evictRecord (side : Side) (key : String) (h : Handle) (c : Cache α) : Cache α :=
  { c with memo := c.memo.evictRecord side key h }

/-- Vacates all slots of one side. -/
def flush (side : Side) (c : Cache α) : Cache α :=
  { c with memo := c.memo.flush side }

/-- The filled records of a type on one side, each once. -/
def entries (side : Side) (type : EntityType) (c : Cache α) : List Handle :=
  (c.memo.recordsOf side type).filter fun h => ! c.records.isPlaceholder h

end Cache

end Reconcile
