import Reconcile.Kdl.Gap
import Reconcile.Kdl.Number
import Reconcile.Kdl.Quote

/-!
# Reading KDL documents

`Document.parse?` reads a text as a KDL 2.0 document. It has no value where the text is no document;
which of the rules of the grammar the text breaks is not told.

A node is a name, then entries, each with a gap before it, then at most one block of children. A
slash and a dash in front of an entry, a block or a node leave it out:

* Entries that are left out stand before an entry, or after all of them.
* Blocks that are left out stand before the block of children or after it.
* Nodes that are left out stand between nodes. They need no end, and take none.

A node ends at a line end, at a semicolon, at a comment up to the end of the line, at the end of the
block, or at the end of the text. Without one of these, only nodes that are left out may follow it.

Entries, blocks and nodes nest and repeat, so their readers are recursive with a bound that the
length of the text provides: every call that descends or repeats has consumed a character.
-/

namespace Reconcile.Kdl

/-- The value of a keyword at the start of a text, and what follows it. -/
def readKeyword? : List Char → Option (Value × List Char)
  | '#' :: 't' :: 'r' :: 'u' :: 'e' :: rest => some (.bool true, rest)
  | '#' :: 'f' :: 'a' :: 'l' :: 's' :: 'e' :: rest => some (.bool false, rest)
  | '#' :: 'n' :: 'u' :: 'l' :: 'l' :: rest => some (.null, rest)
  | '#' :: 'n' :: 'a' :: 'n' :: rest => some (.float (0.0 / 0.0), rest)
  | '#' :: 'i' :: 'n' :: 'f' :: rest => some (.float (1.0 / 0.0), rest)
  | '#' :: '-' :: 'i' :: 'n' :: 'f' :: rest => some (.float (-1.0 / 0.0), rest)
  | _ => none

/-- The rest of a text after a type annotation and the gap behind it, if it starts with one. -/
def skipAnnotation? (fuel : Nat) : List Char → Option (List Char)
  | '(' :: rest => do
    let rest ← skipGap? fuel rest
    let (_, rest) ← readText? rest
    match ← skipGap? fuel rest with
    | ')' :: rest => skipGap? fuel rest
    | _ => none
  | s => some s

/-- A value without annotation, and what follows it. -/
def readBareValue? (s : List Char) : Option (Value × List Char) :=
  match readKeyword? s with
  | some found => some found
  | none =>
    if startsNumber s then readNumber? s
    else (readText? s).map fun (text, rest) => (.str (String.ofList text), rest)

/-- A value, and what follows it. -/
def readValue? (fuel : Nat) (s : List Char) : Option (Value × List Char) :=
  (skipAnnotation? fuel s).bind readBareValue?

/-- An argument or a property, and what follows it. A text is the name of a property when the sign
`=` follows it. -/
def readItem? (fuel : Nat) (s : List Char) : Option (Entry × List Char) :=
  match s with
  | '(' :: _ => (readValue? fuel s).map fun (value, rest) => (⟨none, value⟩, rest)
  | _ =>
    match readBareValue? s with
    | none => none
    | some (.str name, rest) =>
      match skipGap? fuel rest with
      | some ('=' :: more) => do
        let more ← skipGap? fuel more
        let (value, rest) ← readValue? fuel more
        return (⟨some name, value⟩, rest)
      | _ => some (⟨none, .str name⟩, rest)
    | some (value, rest) => some (⟨none, value⟩, rest)

/-- The rest of a text after the marks that leave out what follows them, if it starts with them. -/
def skipLeaveOut? (fuel : Nat) : List Char → Option (List Char)
  | '/' :: '-' :: rest => skipLines? fuel rest
  | _ => none

/-- The rest of a text after the end of a node, if there is one. -/
def skipTerminator? : List Char → Option (List Char)
  | ';' :: rest => some rest
  | '/' :: '/' :: rest => some (skipLine rest)
  | s => skipLineEnd? s

/-! ### Entries -/

mutual
/-- An entry with the entries before it that are left out, and what follows it. -/
def readNextItem? : Nat → List Char → Option (Entry × List Char)
  | 0, _ => none
  | fuel + 1, s =>
    match skipGap? fuel s with
    | none => none
    | some s =>
      readItem? fuel (((skipEntries? fuel s).bind (skipSomeGap? fuel)).getD s)

/-- The rest of a text after entries that are left out, of which there is one at least. -/
def skipEntries? : Nat → List Char → Option (List Char)
  | 0, _ => none
  | fuel + 1, s =>
    match (skipLeaveOut? fuel s).bind (readNextItem? fuel) with
    | none => none
    | some (_, rest) => some (((skipSomeGap? fuel rest).bind (skipEntries? fuel)).getD rest)
end

/-- The entries of a node, each after a gap, and what follows them. -/
def readEntries : Nat → List Char → List Entry × List Char
  | 0, s => ([], s)
  | fuel + 1, s =>
    match (skipSomeGap? fuel s).bind (readNextItem? fuel) with
    | none => ([], s)
    | some (entry, rest) =>
      let (entries, rest) := readEntries fuel rest
      (entry :: entries, rest)

/-! ### Nodes -/

mutual
/-- The nodes of a block of children between its braces, and what follows them. -/
def readBlock? : Nat → List Char → Option (List Node × List Char)
  | fuel + 1, '\x7b' :: block =>
    match readNodes fuel block with
    | (nodes, '\x7d' :: rest) => some (nodes, rest)
    | _ => none
  | _, _ => none

/-- The rest of a text after blocks of children that are left out, of which there is one at
least. -/
def skipBlocks? : Nat → List Char → Option (List Char)
  | 0, _ => none
  | fuel + 1, s =>
    match ((skipGap? fuel s).bind (skipLeaveOut? fuel)).bind (readBlock? fuel) with
    | none => none
    | some (_, rest) => some (((skipSomeGap? fuel rest).bind (skipBlocks? fuel)).getD rest)

/-- The rest of a text after what may stand between the entries of a node and its children: entries
that are left out, then blocks that are left out. -/
def skipToBlock : Nat → List Char → List Char
  | 0, s => s
  | fuel + 1, s =>
    let afterEntries := ((skipSomeGap? fuel s).bind (skipEntries? fuel)).getD s
    let afterBlocks := (skipSomeGap? fuel afterEntries).bind (skipBlocks? fuel)
    let rest := afterBlocks.getD afterEntries
    (skipGap? fuel rest).getD rest

/-- A node without its end, and what follows it. -/
def readNode? : Nat → List Char → Option (Node × List Char)
  | 0, _ => none
  | fuel + 1, s => do
    let s ← skipAnnotation? fuel s
    let (name, s) ← readText? s
    let (entries, s) := readEntries fuel s
    let s := skipToBlock fuel s
    match readBlock? fuel s with
    | none => return (⟨String.ofList name, entries, []⟩, s)
    | some (children, s) =>
      let s := (skipBlocks? fuel s).getD s
      return (⟨String.ofList name, entries, children⟩, (skipGap? fuel s).getD s)

/-- The rest of a text after the gap before a node, which includes nodes that are left out. -/
def skipToNode : Nat → List Char → List Char
  | 0, s => s
  | fuel + 1, s =>
    let next := (skipLines? fuel s).getD s
    match (skipLeaveOut? fuel next).bind (readNode? fuel) with
    | none => next
    | some (_, rest) => skipToNode fuel rest

/-- The nodes of a document or of a block, with their ends between them, and what follows them. The
end of a node does not stand where there is no node. -/
def readNodes : Nat → List Char → List Node × List Char
  | 0, s => ([], s)
  | fuel + 1, s =>
    let next := skipToNode fuel s
    match readNode? fuel next with
    | none => ([], next)
    | some (node, rest) =>
      match skipTerminator? rest with
      | none => ([node], skipToNode fuel rest)
      | some rest =>
        let (nodes, rest) := readNodes fuel rest
        (node :: nodes, rest)
end

/-- A text without the byte order mark at its start. -/
def dropMark : List Char → List Char
  | c :: rest => if c.toNat = 0xFEFF then rest else c :: rest
  | [] => []

/-- The document that a text stands for. -/
def Document.parse? (text : String) : Option Document :=
  let s := dropMark text.toList
  match readNodes (8 * s.length + 16) s with
  | (nodes, []) => some nodes
  | _ => none

end Reconcile.Kdl
