import Reconcile.Decimal.Shortest

/-!
# Laying out decimals

How a double is written: its shortest decimal, positionally when the exponent of the leading digit
lies in a given range and with an exponent otherwise. A whole number keeps `.0`, an exponent has no
leading zeros, and the sign of zero is kept.

The two layouts of this library differ in where positional writing begins, in the sign of a positive
exponent, in the choice between equally near decimals, and in the spelling of what is not a number.
-/

namespace Reconcile.Decimal

/-- The decisions that a layout makes. -/
structure Layout where
  /-- The least exponent of the leading digit that is written positionally. -/
  plainFrom : Int
  /-- The least exponent of the leading digit that is too great to be written positionally. -/
  plainBelow : Int
  /-- What stands before the digits of a positive exponent. -/
  plus : String
  tie : Tie
  /-- The text of a value that is not a number. -/
  nan : String
  /-- The text of the infinite value. -/
  infinity : String

/-- Numbers in messages: positional from `0.0001` up to, but without, `10 ^ 16`. -/
def Layout.message : Layout where
  plainFrom := -4
  plainBelow := 16
  plus := ""
  tie := .up
  nan := "NaN"
  infinity := "inf"

/-- Numbers in JSON text: positional from `0.00001` up to, but without, `10 ^ 16`, and with the sign
of the exponent beyond. JSON has no infinite value and no value that is not a number, so both are
written `null`. -/
def Layout.json : Layout where
  plainFrom := -5
  plainBelow := 16
  plus := "+"
  tie := .even
  nan := "null"
  infinity := "null"

/-- The text of a decimal other than zero. -/
def Layout.place (layout : Layout) (d : Scaled) : String :=
  let digits := toString d.digits
  let count := digits.length
  let lead := d.exponent + count - 1
  let zeros (n : Int) := String.ofList (List.replicate n.toNat '0')
  let front (n : Nat) := String.ofList (digits.toList.take n)
  let back (n : Nat) := String.ofList (digits.toList.drop n)
  if layout.plainFrom ≤ lead && lead < layout.plainBelow then
    if d.exponent ≥ 0 then digits ++ zeros d.exponent ++ ".0"
    else if lead ≥ 0 then front (lead.toNat + 1) ++ "." ++ back (lead.toNat + 1)
    else "0." ++ zeros (-lead - 1) ++ digits
  else
    let exponent := "e" ++ (if lead > 0 then layout.plus else "") ++ toString lead
    if count = 1 then digits ++ exponent else front 1 ++ "." ++ back 1 ++ exponent

/-- The text of a double. -/
def Layout.render (layout : Layout) (x : Float) : String :=
  let bits := x.toBits
  let sign := if bits >>> 63 == 1 then "-" else ""
  let magnitude := Binary.ofBits bits
  if x.isNaN then layout.nan
  else if x.isInf then (if layout.infinity == "null" then "" else sign) ++ layout.infinity
  else if magnitude.mantissa = 0 then sign ++ "0.0"
  else sign ++ layout.place (magnitude.shortest layout.tie)

/-- The double nearest to `digits * 10 ^ exponent`. Exponents far outside the range of doubles are
cut off first, so that no power of ten is computed for them. -/
def toFloat (digits : Nat) (exponent : Int) : Float :=
  let size := (toString digits).length + exponent
  if digits = 0 then 0.0
  else if size > 400 then 1.0 / 0.0
  else if size < -400 then 0.0
  else Float.ofScientific digits (exponent < 0) exponent.natAbs

end Reconcile.Decimal
