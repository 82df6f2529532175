/-!
# Durations

A span of time as a whole number of nanoseconds, and its text in messages: the greatest of the
units `s`, `ms`, `µs` and `ns` of which there is at least one, with the rest as a decimal fraction
without zeros at its end.
-/

namespace Reconcile

/-- A span of time, in nanoseconds. -/
structure Duration where
  nanos : Nat
deriving DecidableEq, Repr, Inhabited

namespace Duration

/-- The nanoseconds in one second. -/
def perSecond : Nat := 1000000000

/-- The nanoseconds in one millisecond. -/
def perMilli : Nat := 1000000

/-- A whole number of seconds. -/
def ofSecs (n : Nat) : Duration := ⟨n * perSecond⟩

/-- A whole number of milliseconds. -/
def ofMillis (n : Nat) : Duration := ⟨n * perMilli⟩

/-- The whole seconds of a duration. -/
def secs (d : Duration) : Nat := d.nanos / perSecond

/-- The nanoseconds beyond the whole seconds of a duration. -/
def subsecNanos (d : Duration) : Nat := d.nanos % perSecond

/-- The whole milliseconds of a duration. -/
def millis (d : Duration) : Nat := d.nanos / perMilli

/-- The duration of no time. -/
def zero : Duration := ⟨0⟩

instance : Add Duration := ⟨fun a b => ⟨a.nanos + b.nanos⟩⟩

/-- What is left of `a` after `b`; nothing when `b` is the longer one. -/
instance : Sub Duration := ⟨fun a b => ⟨a.nanos - b.nanos⟩⟩

instance : LE Duration := ⟨fun a b => a.nanos ≤ b.nanos⟩

instance : LT Duration := ⟨fun a b => a.nanos < b.nanos⟩

instance (a b : Duration) : Decidable (a ≤ b) := inferInstanceAs (Decidable (a.nanos ≤ b.nanos))

instance (a b : Duration) : Decidable (a < b) := inferInstanceAs (Decidable (a.nanos < b.nanos))

instance : Min Duration := ⟨fun a b => ⟨min a.nanos b.nanos⟩⟩

/-- The fraction `part / 10 ^ places` after the decimal point, without zeros at its end, and
nothing at all when it is zero. -/
def fraction (part places : Nat) : String :=
  let digits := (toString part).toList
  let padded := List.replicate (places - digits.length) '0' ++ digits
  match (padded.reverse.dropWhile (· == '0')).reverse with
  | [] => ""
  | kept => "." ++ String.ofList kept

/-- The text of a duration in messages. -/
def render (d : Duration) : String :=
  let n := d.nanos
  if n ≥ perSecond then toString (n / perSecond) ++ fraction (n % perSecond) 9 ++ "s"
  else if n ≥ perMilli then toString (n / perMilli) ++ fraction (n % perMilli) 6 ++ "ms"
  else if n ≥ 1000 then toString (n / 1000) ++ fraction (n % 1000) 3 ++ "µs"
  else toString n ++ "ns"

end Duration

end Reconcile
