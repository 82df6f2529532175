import Reconcile.Decimal.Layout
import Reconcile.Json.Basic

/-!
# Reading JSON text

`Json.parse?` reads one value from a text. A number with a fraction or an exponent is a
floating-point number, and so is a whole number that fits neither 64 unsigned nor 64 signed bits.
Of several fields with one name the last counts.

The readers of nested values carry a bound on their depth. Every call consumes a character before
it descends, so the length of the text suffices as the bound.
-/

namespace Reconcile.Json

/-- Whether a character is one of the four blanks of JSON. -/
def isSpace (c : Char) : Bool :=
  c == ' ' || c == '\n' || c == '\t' || c == '\r'

/-- The rest of the text after its leading blanks. -/
def skipSpace (s : List Char) : List Char :=
  s.dropWhile isSpace

/-- The value of a digit in base sixteen. -/
def hexDigit? (c : Char) : Option Nat :=
  if c.isDigit then some (c.toNat - '0'.toNat)
  else if 'a' ≤ c && c ≤ 'f' then some (c.toNat - 'a'.toNat + 10)
  else if 'A' ≤ c && c ≤ 'F' then some (c.toNat - 'A'.toNat + 10)
  else none

/-- The number that four digits in base sixteen stand for. -/
def hex4? (a b c d : Char) : Option Nat := do
  return (((← hexDigit? a) * 16 + (← hexDigit? b)) * 16 + (← hexDigit? c)) * 16 + (← hexDigit? d)

/-- The rest of a text after the opening quote: the characters up to the closing quote, escapes
resolved, and what follows it. A pair of escaped surrogates is one character. -/
def readText : List Char → Option (List Char × List Char)
  | [] => none
  | '"' :: rest => some ([], rest)
  | '\\' :: 'u' :: a :: b :: c :: d :: rest =>
    match hex4? a b c d with
    | none => none
    | some high =>
      if 0xD800 ≤ high && high < 0xDC00 then
        match rest with
        | '\\' :: 'u' :: a' :: b' :: c' :: d' :: rest' =>
          match hex4? a' b' c' d' with
          | some low =>
            if 0xDC00 ≤ low && low < 0xE000 then
              (readText rest').map fun (text, after) =>
                (Char.ofNat (0x10000 + (high - 0xD800) * 0x400 + (low - 0xDC00)) :: text, after)
            else none
          | none => none
        | _ => none
      else if 0xDC00 ≤ high && high < 0xE000 then none
      else (readText rest).map fun (text, after) => (Char.ofNat high :: text, after)
  | '\\' :: c :: rest =>
    let plain : Option Char :=
      match c with
      | '"' => some '"'
      | '\\' => some '\\'
      | '/' => some '/'
      | 'b' => some '\x08'
      | 'f' => some '\x0c'
      | 'n' => some '\n'
      | 'r' => some '\r'
      | 't' => some '\t'
      | _ => none
    match plain with
    | none => none
    | some p => (readText rest).map fun (text, after) => (p :: text, after)
  | c :: rest => (readText rest).map fun (text, after) => (c :: text, after)

/-- The number that a list of decimal digits stands for. -/
def ofDigits (digits : List Char) : Nat :=
  digits.foldl (fun n c => n * 10 + (c.toNat - '0'.toNat)) 0

/-- A number at the start of a text, and what follows it. -/
def readNumber (s : List Char) : Option (Json × List Char) :=
  let (negative, s) := match s with
    | '-' :: rest => (true, rest)
    | _ => (false, s)
  let whole := s.takeWhile Char.isDigit
  let s := s.dropWhile Char.isDigit
  let (point, places, s) := match s with
    | '.' :: rest => (true, rest.takeWhile Char.isDigit, rest.dropWhile Char.isDigit)
    | _ => (false, [], s)
  let (mark, signed, power, s) := match s with
    | 'e' :: '-' :: rest | 'E' :: '-' :: rest =>
      (true, true, rest.takeWhile Char.isDigit, rest.dropWhile Char.isDigit)
    | 'e' :: '+' :: rest | 'E' :: '+' :: rest | 'e' :: rest | 'E' :: rest =>
      (true, false, rest.takeWhile Char.isDigit, rest.dropWhile Char.isDigit)
    | _ => (false, false, [], s)
  if whole.isEmpty || (point && places.isEmpty) || (mark && power.isEmpty) then none
  else
    let digits := ofDigits (whole ++ places)
    let power : Int := if signed then -(ofDigits power : Int) else ofDigits power
    let magnitude := Decimal.toFloat digits (power - places.length)
    let float : Json := .float (if negative then -magnitude else magnitude)
    if point || mark then some (float, s)
    else if negative then
      some (if digits = 0 || Nat.pow 2 63 < digits then float else .int (-(digits : Int)), s)
    else some (if digits < UInt64.size then .int digits else float, s)

mutual
/-- A value at the start of a text, and what follows it. -/
def readValue : Nat → List Char → Option (Json × List Char)
  | 0, _ => none
  | fuel + 1, s =>
    match skipSpace s with
    | 'n' :: 'u' :: 'l' :: 'l' :: rest => some (.null, rest)
    | 't' :: 'r' :: 'u' :: 'e' :: rest => some (.bool true, rest)
    | 'f' :: 'a' :: 'l' :: 's' :: 'e' :: rest => some (.bool false, rest)
    | '"' :: rest => (readText rest).map fun (text, after) => (.str (String.ofList text), after)
    | '[' :: rest =>
      match skipSpace rest with
      | ']' :: after => some (.arr [], after)
      | _ => (readItems fuel rest).map fun (items, after) => (.arr items, after)
    | '\x7b' :: rest =>
      match skipSpace rest with
      | '\x7d' :: after => some (.obj [], after)
      | _ => (readFields fuel rest).map fun (fields, after) => (ofFields fields, after)
    | rest => readNumber rest

/-- The items of a list up to its closing bracket, and what follows it. -/
def readItems : Nat → List Char → Option (List Json × List Char)
  | 0, _ => none
  | fuel + 1, s =>
    match readValue fuel s with
    | none => none
    | some (item, rest) =>
      match skipSpace rest with
      | ',' :: rest => (readItems fuel rest).map fun (items, after) => (item :: items, after)
      | ']' :: after => some ([item], after)
      | _ => none

/-- The fields of an object up to its closing brace, and what follows it. -/
def readFields : Nat → List Char → Option (List (String × Json) × List Char)
  | 0, _ => none
  | fuel + 1, s =>
    match skipSpace s with
    | '"' :: rest =>
      match readText rest with
      | none => none
      | some (name, rest) =>
        match skipSpace rest with
        | ':' :: rest =>
          match readValue fuel rest with
          | none => none
          | some (value, rest) =>
            let field := (String.ofList name, value)
            match skipSpace rest with
            | ',' :: rest =>
              (readFields fuel rest).map fun (fields, after) => (field :: fields, after)
            | '\x7d' :: after => some ([field], after)
            | _ => none
        | _ => none
    | _ => none
end

/-- The value that a whole text stands for. -/
def parse? (text : String) : Option Json :=
  let s := text.toList
  match readValue (s.length + 1) s with
  | some (value, rest) => if (skipSpace rest).isEmpty then some value else none
  | none => none

end Reconcile.Json
