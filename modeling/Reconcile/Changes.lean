import Reconcile.Action
import Reconcile.Decimal.Layout
import Reconcile.Fields
import Reconcile.Text.Blank
import Reconcile.Text.Quoted

/-!
# Changes between two entities

The answer to "what differs between these two entities?": the differing fields in the order in
which they were compared, each with its value before and after, as shown in messages. Two entities
are equal when there are no changes. Where only a yes or no is known, a single change of the field
`*` stands for all that may differ.

A difference calls for a replacement, and not for an update in place, when it touches a field that
the provider cannot change (`ReplaceOn`).
-/

namespace Reconcile

/-- Values that can be shown in a message. -/
class Shown (α : Type) where
  /-- The text of a value in a message. -/
  shown : α → String

export Shown (shown)

/-- Texts by their names, shown as a map. -/
structure TextMap where
  fields : Fields String
deriving DecidableEq

instance : Shown String := ⟨Text.quoted⟩

instance : Shown Int := ⟨toString⟩

instance : Shown Bool := ⟨fun b => if b then "true" else "false"⟩

instance : Shown Float := ⟨Decimal.Layout.message.render⟩

instance {α : Type} [Shown α] : Shown (Option α) := ⟨fun a => Text.shownOption (a.map shown)⟩

instance {α : Type} [Shown α] : Shown (List α) := ⟨fun l => Text.bracketed (l.map shown)⟩

instance {α β : Type} [Shown α] [Shown β] : Shown (α × β) :=
  ⟨fun (a, b) => "(" ++ shown a ++ ", " ++ shown b ++ ")"⟩

instance : Shown TextMap :=
  ⟨fun m => "\x7b" ++ Text.commaList (m.fields.map fun (k, v) => shown k ++ ": " ++ shown v) ++
    "\x7d"⟩

/-- One differing field, with its values as shown in messages. -/
structure FieldChange where
  field : String
  before : String
  after : String
deriving DecidableEq, Repr

/-- The differing fields of two entities, in the order in which they were compared. -/
structure Changes where
  fields : List FieldChange
deriving DecidableEq, Repr, Inhabited

namespace Changes

variable {α : Type}

/-- No differing field. -/
def empty : Changes := ⟨[]⟩

/-- A difference of which nothing more is known. -/
def opaqueChange : Changes := ⟨[⟨"*", "", ""⟩]⟩

/-- Compares a field by a test of one's own. -/
def diffBy [Shown α] (c : Changes) (field : String) (before after : α) (same : α → α → Bool) :
    Changes :=
  if same before after then c else ⟨c.fields ++ [⟨field, shown before, shown after⟩]⟩

/-- Compares a field. -/
def diff [BEq α] [Shown α] (c : Changes) (field : String) (before after : α) : Changes :=
  c.diffBy field before after (· == ·)

/-- Whether nothing differs. -/
def isEmpty (c : Changes) : Bool := c.fields.isEmpty

/-- The number of differing fields. -/
def size (c : Changes) : Nat := c.fields.length

/-- The names of the differing fields. -/
def names (c : Changes) : List String := c.fields.map (·.field)

/-- Whether a field differs. -/
def contains (c : Changes) (field : String) : Bool :=
  c.fields.any (·.field == field)

/-- Whether two lists of texts have the same members, each as often. -/
def sameMembers (a b : List String) : Bool :=
  a.mergeSort (fun s t => s ≤ t) == b.mergeSort (fun s t => s ≤ t)

/-- Whether two texts are equal but for the case of the letters from `a` to `z`. -/
def sameIgnoringCase (a b : String) : Bool :=
  Text.sameIgnoringCase a.toList b.toList

end Changes

/-- The fields that the provider cannot change, and how to find out what differs. -/
structure ReplaceOn (α : Type) where
  immutable : List String
  changes : α → α → Changes

/-- A difference calls for a replacement exactly when it touches an immutable field. -/
def ReplaceOn.classify {α : Type} (r : ReplaceOn α) (prev next : α) : UpdateStrategy :=
  let changes := r.changes prev next
  if r.immutable.any changes.contains then .replace else .update

end Reconcile
