import Reconcile.Decimal.Layout
import Reconcile.Json.Reader
import Reconcile.Kdl.Document
import Reconcile.Kdl.Gap

/-!
# Numbers in KDL documents

A number is written in base ten, or in base sixteen, eight or two after `0x`, `0o` or `0b`, where
the letter may also be a capital. Underscores may stand among its digits but not in front of them.
In base ten a fraction or an exponent makes it a floating-point number; all others are integers.
Every run of digits stands for a number of at most 127 bits, also in a fraction or an exponent.
-/

namespace Reconcile.Kdl

/-- The digits at the start of a text, underscores left out, and what follows them. The first
character has to be a digit. -/
def readDigits? (isDigit : Char → Bool) (s : List Char) : Option (List Char × List Char) :=
  match s with
  | [] => none
  | c :: _ =>
    if isDigit c then
      let part (c : Char) : Bool := isDigit c || c == '_'
      some ((s.takeWhile part).filter isDigit, s.dropWhile part)
    else none

/-- The number that digits stand for in a base. -/
def ofDigits (base : Nat) (digits : List Char) : Nat :=
  digits.foldl (fun n c => n * base + (Json.hexDigit? c).getD 0) 0

/-- Whether digits of a base stand for a number of at most 127 bits. -/
def fits (base : Nat) (digits : List Char) : Bool :=
  ofDigits base digits < Nat.pow 2 127

/-- The digits in base ten at the start of a text, and what follows them. -/
def readPlaces? (s : List Char) : Option (List Char × List Char) :=
  (readDigits? Char.isDigit s).filter fun found => fits 10 found.1

/-- The integer of a sign and digits. -/
def integer? (negative : Bool) (base : Nat) (digits : List Char) : Option Value :=
  let magnitude : Int := ofDigits base digits
  if fits base digits then some (.int (if negative then -magnitude else magnitude)) else none

/-- The integer after the mark of its base, and what follows it. -/
def readBased? (negative : Bool) (base : Nat) (isDigit : Char → Bool) (s : List Char) :
    Option (Value × List Char) :=
  match readDigits? isDigit s with
  | none => none
  | some (digits, rest) => (integer? negative base digits).map fun v => (v, rest)

/-- The exponent at the start of a text, and what follows it. -/
def readExponent? (s : List Char) : Option (Int × List Char) :=
  match s with
  | c :: rest =>
    if c == 'e' || c == 'E' then
      let (negative, digits) := match rest with
        | '-' :: more => (true, more)
        | '+' :: more => (false, more)
        | _ => (false, rest)
      (readPlaces? digits).map fun (digits, rest) =>
        let n : Int := ofDigits 10 digits
        (if negative then -n else n, rest)
    else none
  | [] => none

/-- The number in base ten at the start of a text, and what follows it. -/
def readDecimal? (negative : Bool) (s : List Char) : Option (Value × List Char) :=
  match readPlaces? s with
  | none => none
  | some (whole, rest) =>
    let places := match rest with
      | '.' :: more => readPlaces? more
      | _ => none
    let rest := (places.map Prod.snd).getD rest
    let exponent := readExponent? rest
    let after := (exponent.map Prod.snd).getD rest
    if places.isNone && exponent.isNone then
      (integer? negative 10 whole).map fun v => (v, after)
    else
      let fraction := (places.map Prod.fst).getD []
      let power := (exponent.map Prod.fst).getD 0
      let magnitude := Decimal.toFloat (ofDigits 10 (whole ++ fraction)) (power - fraction.length)
      some (.float (if negative then -magnitude else magnitude), after)

/-- The digits of base sixteen. -/
def isHexDigit (c : Char) : Bool :=
  (Json.hexDigit? c).isSome

/-- A number without its sign at the start of a text, and what follows it. -/
def readUnsigned? (negative : Bool) (s : List Char) : Option (Value × List Char) :=
  match s with
  | '0' :: mark :: rest =>
    match mark.toLower with
    | 'x' => readBased? negative 16 isHexDigit rest
    | 'o' => readBased? negative 8 (fun c => '0' ≤ c && c ≤ '7') rest
    | 'b' => readBased? negative 2 (fun c => c == '0' || c == '1') rest
    | _ => readDecimal? negative s
  | _ => readDecimal? negative s

/-- A number at the start of a text, and what follows it. -/
def readNumber? (s : List Char) : Option (Value × List Char) :=
  let found := match s with
    | '-' :: rest => readUnsigned? true rest
    | '+' :: rest => readUnsigned? false rest
    | _ => readUnsigned? false s
  found.filter fun (_, rest) => endsValue rest

/-- Whether a text starts as a number does: with a digit, or with a sign and a digit. -/
def startsNumber : List Char → Bool
  | [] => false
  | c :: rest => c.isDigit || (isSign c && rest.head?.any Char.isDigit)

end Reconcile.Kdl
