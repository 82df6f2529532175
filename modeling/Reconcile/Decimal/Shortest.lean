/-!
# Shortest decimals

The decimal number with the fewest digits that reads back as a given binary floating-point
number, found by exact arithmetic on natural numbers.

A finite double is `mantissa * 2 ^ exponent`. The real numbers that round to it form an interval,
from halfway to its lower neighbour to halfway to its upper neighbour; the ends belong to it
exactly when the mantissa is even. On the grid of the decimals with a given number of digits, the
two neighbours of the value are the only candidates: if any grid point lies in the interval, one
of them does. The search tries one digit, two digits, and so on, and takes the first grid with a
candidate in the interval. Of two candidates the nearer one is taken, and of two equally near ones
the one that the `Tie` names.
-/

namespace Reconcile.Decimal

/-- A finite, non-negative double. -/
structure Binary where
  mantissa : Nat
  exponent : Int
  /-- The gap to the lower neighbour is half as wide as the gap to the upper one. -/
  narrowBelow : Bool

/-- The magnitude of a finite double, from its bits. -/
def Binary.ofBits (bits : UInt64) : Binary :=
  let biased := ((bits >>> 52) &&& 0x7FF).toNat
  let fraction := (bits &&& 0xFFFFFFFFFFFFF).toNat
  if biased == 0 then ⟨fraction, -1074, false⟩
  else ⟨Nat.pow 2 52 + fraction, (biased : Int) - 1075, fraction == 0 && biased > 1⟩

/-- The number `digits * 10 ^ exponent`. -/
structure Scaled where
  digits : Nat
  exponent : Int
deriving DecidableEq, Repr

/-- Which of two equally near candidates is taken. -/
inductive Tie where
  /-- The one whose last digit is even. -/
  | even
  /-- The greater one. -/
  | up
deriving DecidableEq, Repr

/-- How `a * 10 ^ i` compares with `b * 2 ^ j`. -/
def compareScaled (a : Nat) (i : Int) (b : Nat) (j : Int) : Ordering :=
  compare (a * Nat.pow 10 i.toNat * Nat.pow 2 (-j).toNat)
    (b * Nat.pow 2 j.toNat * Nat.pow 10 (-i).toNat)

/-- A decimal **reads back** as `x` when it lies in the interval of the numbers that round to
`x`. -/
def Binary.readsBack (x : Binary) (d : Scaled) : Bool :=
  let low := if x.narrowBelow then 4 * x.mantissa - 1 else 4 * x.mantissa - 2
  let high := 4 * x.mantissa + 2
  let closed := x.mantissa % 2 == 0
  let atLow := compareScaled d.digits d.exponent low (x.exponent - 2)
  let atHigh := compareScaled d.digits d.exponent high (x.exponent - 2)
  (atLow == .gt || (closed && atLow == .eq)) && (atHigh == .lt || (closed && atHigh == .eq))

/-- Steps `k` upwards, at most `fuel` times, until `x` lies below `10 ^ k`. -/
def Binary.raiseScale (x : Binary) : Nat → Int → Int
  | 0, k => k
  | fuel + 1, k =>
    if compareScaled 1 k x.mantissa x.exponent == .gt then k else x.raiseScale fuel (k + 1)

/-- The least `k` with `x < 10 ^ k`, for `x` other than zero. The binary logarithm gives a lower
bound that is at most three short. -/
def Binary.scale (x : Binary) : Int :=
  x.raiseScale 6 (((x.mantissa.log2 : Int) + x.exponent) * 30103 / 100000 - 1)

/-- The value of `x` on the grid of step `10 ^ exponent`, rounded down. -/
def Binary.floorOn (x : Binary) (exponent : Int) : Nat :=
  x.mantissa * Nat.pow 2 x.exponent.toNat * Nat.pow 10 (-exponent).toNat /
    (Nat.pow 2 (-x.exponent).toNat * Nat.pow 10 exponent.toNat)

/-- The decimal on the grid of step `10 ^ exponent` that reads back as `x` and is nearest to it. -/
def Binary.onGrid? (x : Binary) (tie : Tie) (exponent : Int) : Option Scaled :=
  let below := x.floorOn exponent
  let lower : Scaled := ⟨below, exponent⟩
  let upper : Scaled := ⟨below + 1, exponent⟩
  match x.readsBack lower, x.readsBack upper with
  | false, false => none
  | true, false => some lower
  | false, true => some upper
  | true, true =>
    match compareScaled (2 * below + 1) exponent (2 * x.mantissa) x.exponent with
    | .gt => some lower
    | .lt => some upper
    | .eq => some (if tie = .even && below % 2 == 0 then lower else upper)

/-- Moves the zeros at the end of the digits into the exponent, at most `fuel` of them. -/
def Scaled.strip : Nat → Scaled → Scaled
  | 0, d => d
  | fuel + 1, d =>
    if d.digits != 0 && d.digits % 10 == 0 then strip fuel ⟨d.digits / 10, d.exponent + 1⟩ else d

/-- **Shortest decimal**: the fewest digits that read back as `x`. Seventeen always suffice. -/
def Binary.shortest (x : Binary) (tie : Tie) : Scaled :=
  if x.mantissa = 0 then ⟨0, 0⟩
  else
    let k := x.scale
    let found := (List.range 17).findSome? fun n => x.onGrid? tie (k - (n + 1 : Nat))
    let exact : Scaled :=
      ⟨x.mantissa * Nat.pow 2 x.exponent.toNat * Nat.pow 5 (-x.exponent).toNat, min x.exponent 0⟩
    (found.getD exact).strip 400

end Reconcile.Decimal
