import Reconcile.Changes

/-!
# KDL documents

A document is a list of nodes. A node has a name, entries in the order in which they were written,
and children. An entry is an argument or, when it has a name, a property; properties that repeat a
name are all kept, and it is for the reader of a document to say which of them counts. Type
annotations and comments are no part of a document.
-/

namespace Reconcile.Kdl

/-- A value of a document. -/
inductive Value where
  | str (text : String)
  | int (value : Int)
  | float (value : Float)
  | bool (value : Bool)
  | null
deriving Inhabited, Repr, DecidableEq

/-- An argument of a node, or a property when it has a name. -/
structure Entry where
  name : Option String
  value : Value
deriving Inhabited, Repr, DecidableEq

/-- A node of a document. -/
inductive Node where
  | mk (name : String) (entries : List Entry) (children : List Node)
deriving Inhabited, Repr

/-- The nodes of a document or of a block of children. -/
abbrev Document := List Node

namespace Value

/-- The text of a value, if it is one. -/
def text? : Value → Option String
  | str s => some s
  | _ => none

/-- The shown form of a value in a message. -/
def shownValue : Value → String
  | str s => "String(" ++ shown s ++ ")"
  | int n => "Integer(" ++ shown n ++ ")"
  | float x => "Float(" ++ shown x ++ ")"
  | bool b => "Bool(" ++ shown b ++ ")"
  | null => "Null"

end Value

namespace Node

/-- The name of a node. -/
def name : Node → String
  | mk name _ _ => name

/-- The arguments and properties of a node, in the order in which they were written. -/
def entries : Node → List Entry
  | mk _ entries _ => entries

/-- The nodes in the block of children. -/
def children : Node → List Node
  | mk _ _ children => children

/-- The arguments of a node. -/
def arguments (n : Node) : List Value :=
  (n.entries.filter fun e => e.name.isNone).map (·.value)

/-- The arguments of a node that are texts. -/
def texts (n : Node) : List String :=
  n.arguments.filterMap Value.text?

/-- The properties of a node, in the order in which they were written. -/
def properties (n : Node) : List (String × Value) :=
  n.entries.filterMap fun e => e.name.map fun name => (name, e.value)

/-- The value of the first property of a name. -/
def property? (n : Node) (name : String) : Option Value :=
  (n.properties.find? fun p => p.1 == name).map Prod.snd

end Node

end Reconcile.Kdl
