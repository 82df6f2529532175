import Reconcile.Entity.Basic

/-!
# Records

A record is a shared cell for one entity. It is either a **placeholder**, reserved for an entity
that is still being fetched, or **filled**. Whoever holds the handle of a record sees the entity
that was filled in last, so a record is known by its place in the collection of all records, and a
handle is that place together with the type of the entity.

* **Filling** changes one record and no other: `Records.value?_fill_self`,
  `Records.value?_fill_of_ne`.
* **A new record** is distinct from all others and leaves them alone: `Records.value?_add_new`,
  `Records.value?_add_of_lt`.
-/

namespace Reconcile

/-- The name of a record: its place, and the type of the entity that it is for. -/
structure Handle where
  type : EntityType
  place : Nat
deriving DecidableEq, Repr, Inhabited

/-- All records, in the order in which they were made. -/
structure Records (α : Type) where
  cells : Array (Option α)

namespace Records

variable {α : Type}

/-- No records. -/
def empty : Records α := ⟨#[]⟩

instance : Inhabited (Records α) := ⟨empty⟩

/-- The entity in a record, unless the record is a placeholder. -/
def value? (r : Records α) (h : Handle) : Option α :=
  r.cells[h.place]?.join

/-- Whether a record is reserved and not filled yet. -/
def isPlaceholder (r : Records α) (h : Handle) : Bool :=
  (r.value? h).isNone

/-- Makes a record for an entity of a type: filled with the given entity, or a placeholder. -/
def add (r : Records α) (type : EntityType) (entity : Option α) : Handle × Records α :=
  (⟨type, r.cells.size⟩, ⟨r.cells.push entity⟩)

/-- Fills a record, in place of the entity that was in it. -/
def fill (r : Records α) (h : Handle) (entity : α) : Records α :=
  ⟨r.cells.setIfInBounds h.place (some entity)⟩

/-- Changes the entity in a record. A placeholder stays one. -/
def modify (r : Records α) (h : Handle) (f : α → α) : Records α :=
  match r.value? h with
  | some entity => r.fill h (f entity)
  | none => r

/-- A filled record holds the entity that it was filled with. -/
theorem value?_fill_self (r : Records α) {h : Handle} (hlt : h.place < r.cells.size) (e : α) :
    (r.fill h e).value? h = some e := by
  simp [value?, fill, Array.getElem?_setIfInBounds_self_of_lt hlt]

/-- Filling a record leaves the others as they were. -/
theorem value?_fill_of_ne (r : Records α) {h k : Handle} (hne : k.place ≠ h.place) (e : α) :
    (r.fill h e).value? k = r.value? k := by
  simp [value?, fill, Array.getElem?_setIfInBounds_ne (Ne.symm hne)]

/-- A new record holds what it was made with. -/
theorem value?_add_new (r : Records α) (type : EntityType) (entity : Option α) :
    (r.add type entity).2.value? (r.add type entity).1 = entity := by
  simp [value?, add]

/-- Making a record leaves those that there were as they are. -/
theorem value?_add_of_lt (r : Records α) (type : EntityType) (entity : Option α) {h : Handle}
    (hlt : h.place < r.cells.size) : (r.add type entity).2.value? h = r.value? h := by
  simp [value?, add, Array.getElem?_push_lt hlt, Array.getElem?_eq_getElem hlt]

end Records

end Reconcile
