import Reconcile.Kdl.Charset

/-!
# Gaps between the parts of a KDL document

What may stand between the parts of a node, and between nodes: space, comments, and line ends. A
line may be continued by a backslash at its end.

Skipping fails where a comment is not closed, or where a backslash does not stand at the end of a
line, since no document has these outside of texts. The functions that skip a gap of any length
take a bound on the number of pieces it consists of; the length of the text suffices.

Texts and numbers have no closing mark that sets them apart from what follows, so `endsValue` says
where they may end: two of them never touch.
-/

namespace Reconcile.Kdl

/-- The rest of a text after the end of a block comment, where `depth` further comments are open
around it. Block comments nest. -/
def skipBlockComment? : Nat → List Char → Option (List Char)
  | _, [] => none
  | 0, '*' :: '/' :: rest => some rest
  | depth + 1, '*' :: '/' :: rest => skipBlockComment? depth rest
  | depth, '/' :: '*' :: rest => skipBlockComment? (depth + 1) rest
  | depth, _ :: rest => skipBlockComment? depth rest

/-- The rest of a text after its current line. -/
def skipLine : List Char → List Char
  | [] => []
  | '\r' :: '\n' :: rest => rest
  | c :: rest => if isLineEnd c then rest else skipLine rest

/-- The rest of a text after its leading spaces and block comments. -/
def skipSpaces? : Nat → List Char → Option (List Char)
  | fuel + 1, '/' :: '*' :: rest => (skipBlockComment? 0 rest).bind (skipSpaces? fuel)
  | fuel + 1, c :: rest => if isSpace c then skipSpaces? fuel rest else some (c :: rest)
  | _, s => some s

/-- The rest of a text after the backslash that continues a line: nothing but spaces and comments
may stand between the backslash and the line end. -/
def skipContinuation? (fuel : Nat) (s : List Char) : Option (List Char) :=
  match skipSpaces? fuel s with
  | none => none
  | some [] => some []
  | some ('/' :: '/' :: rest) => some (skipLine rest)
  | some rest => skipLineEnd? rest

/-- The rest of a text after a gap within a node: spaces, block comments and continued lines. -/
def skipGap? : Nat → List Char → Option (List Char)
  | fuel + 1, '/' :: '*' :: rest => (skipBlockComment? 0 rest).bind (skipGap? fuel)
  | fuel + 1, '\\' :: rest => (skipContinuation? fuel rest).bind (skipGap? fuel)
  | fuel + 1, c :: rest => if isSpace c then skipGap? fuel rest else some (c :: rest)
  | _, s => some s

/-- Whether a text starts with a gap within a node. -/
def startsGap : List Char → Bool
  | [] => false
  | '\\' :: _ => true
  | '/' :: '*' :: _ => true
  | c :: _ => isSpace c

/-- The rest of a text after a gap within a node, if it starts with one. -/
def skipSomeGap? (fuel : Nat) (s : List Char) : Option (List Char) :=
  if startsGap s then skipGap? fuel s else none

/-- Whether a text or a number may end in front of the rest of a document: at its end, where a gap
or the end of a node begins, and where a property, an annotation or a block goes on. -/
def endsValue : List Char → Bool
  | [] => true
  | '/' :: '/' :: _ => true
  | c :: rest =>
    startsGap (c :: rest) || isLineEnd c || c == ';' || c == '=' || c == ')' || c == '\x7b' ||
      c == '\x7d'

/-- The rest of a text after a gap between nodes, which may also extend over line ends and over
comments up to the end of a line. -/
def skipLines? : Nat → List Char → Option (List Char)
  | fuel + 1, '/' :: '*' :: rest => (skipBlockComment? 0 rest).bind (skipLines? fuel)
  | fuel + 1, '/' :: '/' :: rest => skipLines? fuel (skipLine rest)
  | fuel + 1, '\\' :: rest => (skipContinuation? fuel rest).bind (skipLines? fuel)
  | fuel + 1, c :: rest =>
    if isSpace c || isLineEnd c then skipLines? fuel rest else some (c :: rest)
  | _, s => some s

end Reconcile.Kdl
