import Reconcile.Settings.Basic

/-!
# Waiting and retrying

Two ways to look at something again and again: until it is ready or time is up, and until it
succeeds or the attempts are used up. Time passes only in sleeps, so waiting is described by the
times of its looks and by its result, and trying by its attempts and sleeps and by its result.

* `pollFrom` looks for the first time at once, and for the last time when time is up: the sleep
  before that look is cut short.
* `tryFrom` sleeps after every attempt that fails, but for the last one.

How long a sleep lasts is a matter of the timer, which is not described here: the clock is a
function `lasts` from the time that a sleep is to last for to the time that passes.
-/

namespace Reconcile

/-- A result with the times of the looks that led to it. -/
structure Timed (β : Type) where
  times : List Duration
  result : β
deriving Repr

/-- A run that began with a further look. -/
def Timed.after {β : Type} (time : Duration) (run : Timed β) : Timed β :=
  { run with times := time :: run.times }

/-- What a look at the thing waited for finds. -/
inductive Probe (α ε : Type) where
  | ready (value : α)
  | pending
  | failed (error : ε)
deriving Repr, DecidableEq

/-- How waiting ends. -/
inductive WaitEnd (α ε : Type) where
  | ready (value : α)
  | failed (error : ε)
  | timeout (waited : Duration)
  /-- Waiting had not ended after the number of looks it was followed for. -/
  | unfinished
deriving Repr, DecidableEq

variable {α ε : Type}

/-- Waiting from the look of the given number and time on, followed for a number of looks. -/
def pollFrom (lasts : Duration → Duration) (maxWait : Duration) (delay : Nat → Duration)
    (probe : Nat → Probe α ε) : Nat → Nat → Duration → Timed (WaitEnd α ε)
  | 0, _, _ => ⟨[], .unfinished⟩
  | fuel + 1, i, now =>
    match probe i with
    | .ready value => ⟨[now], .ready value⟩
    | .failed error => ⟨[now], .failed error⟩
    | .pending =>
      if maxWait ≤ now then ⟨[now], .timeout now⟩
      else
        let sleep := min (delay i) (maxWait - now)
        (pollFrom lasts maxWait delay probe fuel (i + 1) (now + lasts sleep)).after now

/-- The number of looks that waiting is followed for. -/
def maxProbes : Nat := 4294967296

/-- Waiting until a probe is not pending any more or time is up. -/
def WaitSettings.poll (w : WaitSettings) (lasts : Duration → Duration) (probe : Nat → Probe α ε) :
    Timed (WaitEnd α ε) :=
  pollFrom lasts w.maxWait w.backoff.delay probe maxProbes 0 .zero

/-- What is done while trying. -/
inductive TryStep where
  | attempt
  /-- A sleep that is to last for a delay. -/
  | sleep (delay : Duration)
deriving Repr, DecidableEq

/-- The times of the attempts among some steps, on a clock that advances only by sleeping. -/
def attemptTimes (lasts : Duration → Duration) (now : Duration) : List TryStep → List Duration
  | [] => []
  | .attempt :: steps => now :: attemptTimes lasts now steps
  | .sleep delay :: steps => attemptTimes lasts (now + lasts delay) steps

/-- A result with the steps that led to it. -/
structure Tried (β : Type) where
  steps : List TryStep
  result : β
deriving Repr

/-- The times of the attempts of a run. -/
def Tried.times {β : Type} (lasts : Duration → Duration) (run : Tried β) : List Duration :=
  attemptTimes lasts .zero run.steps

/-- A run that began with a further attempt and a sleep. -/
def Tried.afterSleep {β : Type} (delay : Duration) (run : Tried β) : Tried β :=
  { run with steps := .attempt :: .sleep delay :: run.steps }

/-- Trying from the attempt of the given number on. Attempts are counted from zero, up to a limit
that none of them reaches. -/
def tryFrom (limit : Nat) (delay : Nat → Duration) (outcome : Nat → Except ε α) (i : Nat) :
    Tried (Except ε α) :=
  match outcome i with
  | .ok value => ⟨[.attempt], .ok value⟩
  | .error error =>
    if i + 1 < limit then (tryFrom limit delay outcome (i + 1)).afterSleep (delay i)
    else ⟨[.attempt], .error error⟩
termination_by limit - i
decreasing_by omega

/-- Trying until an attempt succeeds or the attempts are used up. There is one attempt at least. -/
def RetrySettings.retry (r : RetrySettings) (outcome : Nat → Except ε α) : Tried (Except ε α) :=
  tryFrom (max r.maxAttempts 1) r.backoff.delay outcome 0

end Reconcile
