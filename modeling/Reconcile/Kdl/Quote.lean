import Reconcile.Json.Reader
import Reconcile.Kdl.Gap
import Reconcile.Text.Blank

/-!
# Texts in KDL documents

The four ways to write a text: bare, as an identifier; in quotes, with escapes; over several lines,
between lines of three quotes; and raw, where a number of `#` around the quotes takes the place of
escapes.

* **Quoted texts** are read by an automaton, one character at a time: `Scan.next` says what a
  character stands for after what came before it. A backslash before spaces or line ends leaves all
  of them out.
* **Texts over several lines** have the spaces before their closing quotes taken off every line.
  Lines of nothing but spaces count as empty, and a character that was written as an escape is
  never taken for space.
* **Raw texts** extend over several lines when a line end follows three opening quotes. Without a
  line end, the second and the third quote already belong to the text. A single quote cannot be
  written as a raw text.
-/

namespace Reconcile.Kdl

/-! ### Quoted texts -/

/-- What stands before the next character of a quoted text. -/
inductive Scan where
  /-- Nothing of note. -/
  | plain
  /-- A backslash. -/
  | escape
  /-- A backslash and space, which is left out. -/
  | gap
  /-- A backslash and the letter `u`. -/
  | codeOpen
  /-- The digits of an escaped code point: their value so far and their number. -/
  | code (value count : Nat)
deriving DecidableEq, Repr

/-- What a character of a quoted text does. -/
inductive Scanned where
  /-- It is the closing quote. -/
  | close
  /-- It stands for a character or for none, and the scan goes on. The flag says whether the
  character was written as it is. -/
  | go (char : Option Char) (literal : Bool) (next : Scan)
  /-- It may not stand there. -/
  | bad

namespace Scan

/-- The character that an escape of one letter stands for. -/
def letter? : Char → Option Char
  | '"' => some '"'
  | '\\' => some '\\'
  | 'b' => some '\x08'
  | 'f' => some '\x0c'
  | 'n' => some '\n'
  | 'r' => some '\r'
  | 't' => some '\t'
  | 's' => some ' '
  | _ => none

/-- What a character does where nothing of note precedes it. -/
def nextPlain (c : Char) : Scanned :=
  if c = '"' then .close
  else if c = '\\' then .go none false .escape
  else if isForbidden c then .bad
  else .go (some c) true .plain

/-- What a character does after a backslash. -/
def nextEscape (c : Char) : Scanned :=
  if isSpace c || isLineEnd c then .go none false .gap
  else if c = 'u' then .go none false .codeOpen
  else match letter? c with
    | some e => .go (some e) false .plain
    | none => .bad

/-- What a character does after the digits of an escaped code point. A code point has at most six
digits and is not that of a surrogate. -/
def nextCode (value count : Nat) (c : Char) : Scanned :=
  match Json.hexDigit? c with
  | some d => if count < 6 then .go none false (.code (value * 16 + d) (count + 1)) else .bad
  | none =>
    if c = '\x7d' && count ≠ 0 && (value < 0xD800 || (0xE000 ≤ value && value < 0x110000)) then
      .go (some (Char.ofNat value)) false .plain
    else .bad

/-- What a character does after what stands before it. -/
def next : Scan → Char → Scanned
  | plain, c => nextPlain c
  | escape, c => nextEscape c
  | gap, c => if isSpace c || isLineEnd c then .go none false .gap else nextPlain c
  | codeOpen, c => if c = '\x7b' then .go none false (.code 0 0) else .bad
  | code value count, c => nextCode value count c

end Scan

/-- The text up to its closing quote, and what follows it. Such a text stands on one line. -/
def readQuoted? : Scan → List Char → Option (List Char × List Char)
  | _, [] => none
  | scan, c :: rest =>
    match scan.next c with
    | .bad => none
    | .close => some ([], rest)
    | .go none _ scan => readQuoted? scan rest
    | .go (some d) literal scan =>
      if literal && isLineEnd d then none
      else (readQuoted? scan rest).map fun (text, after) => (d :: text, after)

/-! ### Texts over several lines -/

/-- A character of a text over several lines. -/
structure Glyph where
  char : Char
  /-- The character was written as it is, and not as an escape. -/
  literal : Bool
deriving DecidableEq, Repr

namespace Glyph

/-- Whether a character is space that was written as it is. -/
def isSpace (g : Glyph) : Bool :=
  g.literal && Kdl.isSpace g.char

/-- Whether a character is a line end that was written as it is. -/
def isLineEnd (g : Glyph) : Bool :=
  g.literal && Kdl.isLineEnd g.char

end Glyph

/-- The characters up to the closing quotes, and what follows them. Quotes that are not three in a
row belong to the text, and every line end is one line feed. -/
def readGlyphs? : Scan → List Char → Option (List Glyph × List Char)
  | .plain, '"' :: '"' :: '"' :: rest => some ([], rest)
  | .gap, '"' :: '"' :: '"' :: rest => some ([], rest)
  | .plain, '\r' :: '\n' :: rest =>
    (readGlyphs? .plain rest).map fun (text, after) => (⟨'\n', true⟩ :: text, after)
  | _, [] => none
  | scan, c :: rest =>
    match scan.next c with
    | .bad => none
    | .close => (readGlyphs? .plain rest).map fun (text, after) => (⟨c, true⟩ :: text, after)
    | .go none _ scan => readGlyphs? scan rest
    | .go (some d) literal scan =>
      let d := if literal && isLineEnd d then '\n' else d
      (readGlyphs? scan rest).map fun (text, after) => (⟨d, literal⟩ :: text, after)

/-- A line without the given spaces at its start. A line of nothing but spaces is empty. -/
def dedent? (margin line : List Glyph) : Option (List Char) :=
  if line.all Glyph.isSpace then some []
  else if margin.isPrefixOf line then some ((line.drop margin.length).map (·.char))
  else none

/-- The text that the lines between the quotes stand for. The last of them holds the spaces that
are taken off the others. -/
def joinLines? (glyphs : List Glyph) : Option (List Char) :=
  let lines := Text.splitBy Glyph.isLineEnd glyphs
  let margin := lines.getLastD []
  if margin.all Glyph.isSpace then
    (lines.dropLast.mapM (dedent? margin)).map fun texts => List.intercalate ['\n'] texts
  else none

/-- The text after three opening quotes and a line end, and what follows its closing quotes. -/
def readLines? (s : List Char) : Option (List Char × List Char) :=
  match skipLineEnd? s with
  | none => none
  | some body =>
    match readGlyphs? .plain body with
    | none => none
    | some (glyphs, after) => (joinLines? glyphs).map fun text => (text, after)

/-! ### Raw texts -/

/-- The characters up to the place where `close` stands, and what follows it. -/
def readUntil? (close : List Char) : List Char → Option (List Char × List Char)
  | [] => none
  | c :: rest =>
    if close.isPrefixOf (c :: rest) then some ([], (c :: rest).drop close.length)
    else if isForbidden c then none
    else (readUntil? close rest).map fun (text, after) => (c :: text, after)

/-- Line ends as single line feeds, where every character was written as it is. -/
def toGlyphs : List Char → List Glyph
  | [] => []
  | '\r' :: '\n' :: rest => ⟨'\n', true⟩ :: toGlyphs rest
  | c :: rest => ⟨if isLineEnd c then '\n' else c, true⟩ :: toGlyphs rest

/-- The rest of a text after the three quotes and the line end that open a raw text over several
lines. -/
def skipRawOpening? : List Char → Option (List Char)
  | '"' :: '"' :: '"' :: rest => skipLineEnd? rest
  | _ => none

/-- A raw text over several lines after its opening, and what follows it. -/
def readRawLines? (marks body : List Char) : Option (List Char × List Char) :=
  match readUntil? (['"', '"', '"'] ++ marks) body with
  | none => none
  | some (lines, after) => (joinLines? (toGlyphs lines)).map fun text => (text, after)

/-- A raw text on one line after its opening quote, and what follows it. -/
def readRawLine? (marks body : List Char) : Option (List Char × List Char) :=
  (readUntil? ('"' :: marks) body).filter fun (text, _) => ! text.any isLineEnd

/-- The raw text whose opening quote is preceded by the given marks, from the quote on. -/
def readRaw? (marks s : List Char) : Option (List Char × List Char) :=
  let found := match skipRawOpening? s, s with
    | some body, _ => readRawLines? marks body
    | none, '"' :: body => readRawLine? marks body
    | none, _ => none
  found.filter fun (text, _) => text != ['"']

/-! ### Bare texts -/

/-- Whether a run of identifier characters is a bare text. It must not look like a number or like a
keyword. -/
def isBare : List Char → Bool
  | [] => false
  | '.' :: rest => ! (rest.head?.any Char.isDigit)
  | c :: rest =>
    if isSign c then
      match rest with
      | '.' :: more => ! (more.head?.any Char.isDigit)
      | _ => ! (rest.head?.any Char.isDigit)
    else if c.isDigit then false
    else ! ["true", "false", "null", "inf", "nan"].contains (String.ofList (c :: rest))

/-- A bare text at the start of a list of characters, and what follows it. -/
def readBare? (s : List Char) : Option (List Char × List Char) :=
  let bare := s.takeWhile isIdentifierChar
  if isBare bare then some (bare, s.dropWhile isIdentifierChar) else none

/-- A text at the start of a list of characters, written in any of the four ways, and what follows
it. -/
def readText? (s : List Char) : Option (List Char × List Char) :=
  let found := match s with
    | '"' :: '"' :: '"' :: rest => readLines? rest
    | '"' :: rest => readQuoted? .plain rest
    | '#' :: _ => readRaw? (s.takeWhile (· == '#')) (s.dropWhile (· == '#'))
    | _ => readBare? s
  found.filter fun (_, rest) => endsValue rest

end Reconcile.Kdl
