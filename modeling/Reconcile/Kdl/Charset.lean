/-!
# The characters of KDL

The classes of characters that the grammar of KDL 2.0 distinguishes. Space within a line, line ends
and the characters that may not stand in a document at all are disjoint classes, and an identifier
consists of none of them and of no punctuation.
-/

namespace Reconcile.Kdl

/-- Space within a line. -/
def isSpace (c : Char) : Bool :=
  let n := c.toNat
  n == 0x09 || n == 0x20 || n == 0xA0 || n == 0x1680 || (0x2000 ≤ n && n ≤ 0x200A) ||
    n == 0x202F || n == 0x205F || n == 0x3000

/-- A character that ends a line. -/
def isLineEnd (c : Char) : Bool :=
  let n := c.toNat
  (0x0A ≤ n && n ≤ 0x0D) || n == 0x85 || n == 0x2028 || n == 0x2029

/-- A character that may not stand in a document: a control character below the space, a mark that
changes the direction of writing, or a byte order mark. -/
def isForbidden (c : Char) : Bool :=
  let n := c.toNat
  n ≤ 0x08 || (0x0E ≤ n && n ≤ 0x1F) || n == 0x200E || n == 0x200F ||
    (0x202A ≤ n && n ≤ 0x202E) || (0x2066 ≤ n && n ≤ 0x2069) || n == 0xFEFF

/-- A character with a meaning of its own outside of texts. -/
def isPunctuation (c : Char) : Bool :=
  c == '\\' || c == '/' || c == '(' || c == ')' || c == '\x7b' || c == '\x7d' || c == ';' ||
    c == '[' || c == ']' || c == '"' || c == '#' || c == '='

/-- A character that an identifier may contain. -/
def isIdentifierChar (c : Char) : Bool :=
  ! isSpace c && ! isLineEnd c && ! isForbidden c && ! isPunctuation c

/-- A sign of a number. -/
def isSign (c : Char) : Bool :=
  c == '+' || c == '-'

/-- The rest of a text after one line end, where a carriage return and the line feed after it are
one line end. -/
def skipLineEnd? : List Char → Option (List Char)
  | '\r' :: '\n' :: rest => some rest
  | c :: rest => if isLineEnd c then some rest else none
  | [] => none

end Reconcile.Kdl
