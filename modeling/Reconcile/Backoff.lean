import Reconcile.Duration

/-!
# Backoff

Delays that grow by a constant factor from one attempt to the next, up to a greatest delay. Growth
is computed in floating-point milliseconds and cut down to whole ones; a factor below one counts as
one, so delays never shrink.
-/

namespace Reconcile

/-- The parameters of growing delays. -/
structure Backoff where
  initialDelay : Duration
  maxDelay : Duration
  multiplier : Float
deriving Repr

namespace Backoff

/-- One second at first, twice as long each time, half a minute at most. -/
protected def default : Backoff := ⟨.ofSecs 1, .ofSecs 30, 2.0⟩

instance : Inhabited Backoff := ⟨Backoff.default⟩

/-- `r * a ^ n` by repeated squaring of `a`. -/
def timesPower (r a : Float) (n : Nat) : Float :=
  let r := if n % 2 = 1 then r * a else r
  if n / 2 = 0 then r else timesPower r (a * a) (n / 2)
termination_by n
decreasing_by omega

/-- The lesser of two numbers; where one of them is not a number, the other one. -/
def lesser (a b : Float) : Float :=
  if a.isNaN then b else if b < a then b else a

/-- The factor by which delays grow, which is at least one. -/
def growth (b : Backoff) : Float :=
  if b.multiplier > 1.0 then b.multiplier else 1.0

/-- The greatest exponent of the growth. -/
def maxExponent : Nat := 2147483647

/-- The delay after an attempt, where attempts are counted from zero. -/
def delay (b : Backoff) (attempt : Nat) : Duration :=
  let factor := timesPower 1.0 b.growth (min attempt maxExponent)
  let millis := lesser (Float.ofNat b.initialDelay.millis * factor) (Float.ofNat b.maxDelay.millis)
  .ofMillis millis.toUInt64.toNat

end Backoff

end Reconcile
