import Mathlib.Data.Nat.Find
import Reconcile.Polling

/-!
# The attempts of a run

Trying goes on after an attempt that fails, unless the attempts are used up (`Retries`). So a run is
told by the number of its last attempt: each attempt before it is followed by a sleep, and the run
ends with the outcome of the last one (`tryFrom_of_last`).

A sleep is to last for the delay that belongs to the attempt before it. On a clock on which it does,
the attempts are at the times `attemptTime`.
-/

namespace Reconcile

variable {α ε : Type}

section Attempts

variable (limit : Nat) (delay : Nat → Duration) (outcome : Nat → Except ε α)

/-- Trying goes on after an attempt. -/
def Retries (i : Nat) : Prop :=
  (∃ error, outcome i = .error error) ∧ i + 1 < limit

/-- The time of an attempt, if trying goes on until then. -/
def attemptTime : Nat → Duration
  | 0 => .zero
  | i + 1 => attemptTime i + delay i

variable {limit delay outcome}

theorem tryFrom_of_retries {i : Nat} (h : Retries limit outcome i) :
    tryFrom limit delay outcome i =
      (tryFrom limit delay outcome (i + 1)).afterSleep (delay i) := by
  obtain ⟨⟨error, herror⟩, hlt⟩ := h
  rw [tryFrom, herror]
  exact if_pos hlt

theorem tryFrom_of_not_retries {i : Nat} (h : ¬ Retries limit outcome i) :
    tryFrom limit delay outcome i = ⟨[.attempt], outcome i⟩ := by
  rw [tryFrom]
  cases houtcome : outcome i with
  | ok value => rfl
  | error error => exact if_neg fun hlt => h ⟨⟨error, houtcome⟩, hlt⟩

/-- A run in which trying goes on a number of times. -/
theorem tryFrom_of_last {i n : Nat} (hbefore : ∀ j, i ≤ j → j < i + n → Retries limit outcome j)
    (hlast : ¬ Retries limit outcome (i + n)) :
    tryFrom limit delay outcome i =
      ⟨((List.range' i n).flatMap fun j => [.attempt, .sleep (delay j)]) ++ [.attempt],
        outcome (i + n)⟩ := by
  induction n generalizing i with
  | zero => exact tryFrom_of_not_retries hlast
  | succ n ih =>
    have hsum : i + (n + 1) = i + 1 + n := by omega
    rw [hsum] at hlast ⊢
    rw [tryFrom_of_retries (hbefore i (Nat.le_refl i) (by omega)),
      ih (fun j hj hj' => hbefore j (by omega) (by omega)) hlast, List.range'_succ,
      List.flatMap_cons]
    rfl

/-- If sleeps last for their delays, the attempts are at the times `attemptTime`. -/
theorem attemptTimes_steps {lasts : Duration → Duration} (hsleep : ∀ i, lasts (delay i) = delay i)
    (i n : Nat) :
    attemptTimes lasts (attemptTime delay i)
        (((List.range' i n).flatMap fun j => [.attempt, .sleep (delay j)]) ++ [.attempt]) =
      (List.range' i (n + 1)).map (attemptTime delay) := by
  induction n generalizing i with
  | zero => rfl
  | succ n ih =>
    rw [List.range'_succ, List.range'_succ, List.flatMap_cons, List.map_cons, ← ih (i + 1),
      attemptTime]
    simp only [List.cons_append, List.nil_append, attemptTimes, hsleep i]

end Attempts

namespace RetrySettings

variable (r : RetrySettings) (outcome : Nat → Except ε α)

/-- **A run is told by its last attempt.** Trying goes on after every attempt before the last one,
and ends with the outcome of that one. -/
theorem exists_last : ∃ last < max r.maxAttempts 1,
    (∀ i < last, Retries (max r.maxAttempts 1) outcome i) ∧
      ¬ Retries (max r.maxAttempts 1) outcome last ∧
      r.retry outcome =
        ⟨((List.range last).flatMap fun i => [.attempt, .sleep (r.backoff.delay i)]) ++ [.attempt],
          outcome last⟩ := by
  classical
  have hused : ¬ Retries (max r.maxAttempts 1) outcome (max r.maxAttempts 1 - 1) :=
    fun h => absurd h.2 (by omega)
  have hend : ∃ n, ¬ Retries (max r.maxAttempts 1) outcome n := ⟨_, hused⟩
  have hbefore : ∀ i < Nat.find hend, Retries (max r.maxAttempts 1) outcome i :=
    fun i hi => Classical.not_not.mp (Nat.find_min hend hi)
  have hle : Nat.find hend ≤ max r.maxAttempts 1 - 1 := Nat.find_min' hend hused
  have hlast : ¬ Retries (max r.maxAttempts 1) outcome (0 + Nat.find hend) := by
    rw [Nat.zero_add]
    exact Nat.find_spec hend
  refine ⟨Nat.find hend, by omega, hbefore, Nat.find_spec hend, ?_⟩
  rw [retry, tryFrom_of_last (fun j _ hj => hbefore j (by omega)) hlast, Nat.zero_add,
    List.range_eq_range']

/-- **Bounded trying.** There is a last attempt, which is the first one that succeeds if there is
such a one within the attempts allowed, and else the last one allowed; at least one is allowed. The
run consists of the attempts up to it with a sleep after each but the last one, which is to last for
the delay of that attempt, and has the outcome of the last attempt as its result. On a clock on
which these sleeps last as long as they are to, each attempt follows after the delay of the attempt
before it. -/
theorem retry_bounded {lasts : Duration → Duration}
    (hsleep : ∀ i, lasts (r.backoff.delay i) = r.backoff.delay i) :
    ∃ last < max r.maxAttempts 1,
      (∀ i < last, ∃ error, outcome i = .error error) ∧
      (last + 1 < max r.maxAttempts 1 → ∃ value, outcome last = .ok value) ∧
      (r.retry outcome).result = outcome last ∧
      (r.retry outcome).steps =
        ((List.range last).flatMap fun i => [.attempt, .sleep (r.backoff.delay i)]) ++
          [.attempt] ∧
      (r.retry outcome).times lasts =
        (List.range (last + 1)).map (attemptTime r.backoff.delay) := by
  obtain ⟨last, hlt, hbefore, hlast, hrun⟩ := r.exists_last outcome
  refine ⟨last, hlt, fun i hi => (hbefore i hi).1, fun hmore => ?_, ?_, ?_, ?_⟩
  · cases houtcome : outcome last with
    | ok value => exact ⟨value, rfl⟩
    | error error => exact absurd ⟨⟨error, houtcome⟩, hmore⟩ hlast
  · exact congrArg Tried.result hrun
  · exact congrArg Tried.steps hrun
  · have hsteps := congrArg Tried.steps hrun
    calc (r.retry outcome).times lasts
        = attemptTimes lasts (attemptTime r.backoff.delay 0) (r.retry outcome).steps := rfl
      _ = (List.range' 0 (last + 1)).map (attemptTime r.backoff.delay) := by
        rw [hsteps, List.range_eq_range', attemptTimes_steps hsleep]
      _ = (List.range (last + 1)).map (attemptTime r.backoff.delay) := by
        rw [List.range_eq_range']

/-- Two attempts fail, and the third one succeeds, after delays of 1 and 2 milliseconds. A fourth
one is not made. -/
theorem retry_bounded_third :
    let r : RetrySettings := ⟨4, ⟨.ofMillis 1, .ofMillis 4, 2.0⟩⟩
    let outcome : Nat → Except Nat Unit := fun i => if i < 2 then .error i else .ok ()
    (∀ i, id (r.backoff.delay i) = r.backoff.delay i) ∧
      (r.retry outcome).result = .ok () ∧
      (r.retry outcome).steps = [.attempt, .sleep (.ofMillis 1), .attempt, .sleep (.ofMillis 2),
        .attempt] ∧
      (r.retry outcome).times id = [.zero, .ofMillis 1, .ofMillis 3] := by
  intro r outcome
  have hsleep : ∀ i, id (r.backoff.delay i) = r.backoff.delay i := fun _ => rfl
  obtain ⟨last, hlt, hfailed, hmore, hresult, hsteps, htimes⟩ := r.retry_bounded outcome hsleep
  obtain rfl : last = 2 := by
    -- an earlier last attempt would have succeeded, and a later one would follow a success
    rcases Nat.lt_trichotomy last 2 with h | h | h
    · obtain ⟨value, hvalue⟩ := hmore (Nat.lt_trans (Nat.succ_lt_succ h) (by decide))
      rw [show outcome last = .error last from if_pos h] at hvalue
      cases hvalue
    · exact h
    · obtain ⟨error, herror⟩ := hfailed 2 h
      cases herror
  have hfirst : r.backoff.delay 0 = .ofMillis 1 := by decide +kernel
  have hsecond : r.backoff.delay 1 = .ofMillis 2 := by decide +kernel
  refine ⟨hsleep, hresult, hsteps.trans ?_, htimes.trans ?_⟩
  · change [TryStep.attempt, .sleep (r.backoff.delay 0), .attempt, .sleep (r.backoff.delay 1),
      .attempt] = _
    rw [hfirst, hsecond]
  · change [Duration.zero, .zero + r.backoff.delay 0,
      .zero + r.backoff.delay 0 + r.backoff.delay 1] = _
    rw [hfirst, hsecond]
    rfl

end RetrySettings

end Reconcile
