/-!
# Blanks, words and lines

The characters that count as white space, and the three cuts of a text that rest on them: taking
the blanks off both ends, splitting into words, and splitting into lines. Every cut is a function
on lists of characters, so that it can be reasoned about by induction; the versions on `String`
only wrap it.

* **Blanks** are the characters with the Unicode property `White_Space`.
* **Words** are the maximal runs of characters that are not blank.
* **Lines** end at a line feed. A carriage return just before that line feed belongs to the line
  end; a last line without a line feed is kept as it stands, and no empty line follows the last
  line feed.
-/

namespace Reconcile.Text

/-- The Unicode property `White_Space`. -/
def isBlank (c : Char) : Bool :=
  let n := c.toNat
  (9 ≤ n && n ≤ 13) || n == 0x20 || n == 0x85 || n == 0xA0 || n == 0x1680 ||
    (0x2000 ≤ n && n ≤ 0x200A) || n == 0x2028 || n == 0x2029 || n == 0x202F || n == 0x205F ||
    n == 0x3000

/-- The elements of a list from the first to the last that does not satisfy `p`. -/
def trimBy (p : α → Bool) (l : List α) : List α :=
  ((l.dropWhile p).reverse.dropWhile p).reverse

/-- A text without the blanks at its two ends. -/
def trim (s : String) : String :=
  String.ofList (trimBy isBlank s.toList)

/-- **Cutting**: the pieces of a list between the elements that satisfy `p`, in order. There is one
piece more than there are such elements. -/
def splitBy (p : α → Bool) : List α → List (List α)
  | [] => [[]]
  | x :: xs =>
    match p x, splitBy p xs with
    | true, pieces => [] :: pieces
    | false, [] => [[x]]
    | false, piece :: pieces => (x :: piece) :: pieces

/-- Cutting never yields an empty list of pieces. -/
theorem splitBy_ne_nil (p : α → Bool) (l : List α) : splitBy p l ≠ [] := by
  cases l with
  | nil => simp [splitBy]
  | cons x xs =>
    unfold splitBy
    split <;> simp

/-- The pieces of a text between the occurrences of the character `c`. -/
def splitAt (c : Char) (s : String) : List String :=
  (splitBy (· == c) s.toList).map String.ofList

/-- The maximal runs of characters that are not blank. -/
def words (s : List Char) : List (List Char) :=
  (splitBy isBlank s).filter (! ·.isEmpty)

/-- A line without the carriage return at its end. -/
def dropReturn (line : List Char) : List Char :=
  if line.getLast? == some '\r' then line.dropLast else line

/-- The lines among the pieces between line feeds: all but the last piece were ended by a line
feed, and the last is a line only when it is not empty. -/
def linesOfPieces : List (List Char) → List (List Char)
  | [] => []
  | [last] => if last.isEmpty then [] else [last]
  | piece :: pieces => dropReturn piece :: linesOfPieces pieces

/-- The lines of a text. -/
def lines (s : List Char) : List (List Char) :=
  linesOfPieces (splitBy (· == '\n') s)

/-- The elements before the first place where the whole of `mark` stands, and those after it. -/
def cutAt? [BEq α] (mark : List α) : List α → Option (List α × List α)
  | [] => if mark.isEmpty then some ([], []) else none
  | x :: xs =>
    if mark.isPrefixOf (x :: xs) then some ([], (x :: xs).drop mark.length)
    else (cutAt? mark xs).map fun (before, after) => (x :: before, after)

/-- The letters `A` to `Z` and `a` to `z` written without regard to case. -/
def sameIgnoringCase (s t : List Char) : Bool :=
  s.map Char.toLower == t.map Char.toLower

end Reconcile.Text
