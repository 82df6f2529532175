import Mathlib.Data.Nat.Find
import Reconcile.Polling

/-!
# The times of looks

Waiting goes on after a look that finds nothing before time is up (`GoesOn`). So a run is told by
the number of its last look: its looks are at the first of the times `lookTime`, and it ends with
what the last of them finds (`WaitSettings.poll_cases`).

No look is later than the time at which waiting is given up, since the sleep before it is cut short.
All this is on a clock on which a sleep lasts as long as it is to. Of such clocks there is one only,
as far as the sleeps of a run are concerned (`WaitSettings.poll_eq`).
-/

namespace Reconcile

namespace Duration

theorem nanos_inj {a b : Duration} : a.nanos = b.nanos ↔ a = b :=
  ⟨fun h => congrArg Duration.mk h, congrArg Duration.nanos⟩

theorem nanos_add (a b : Duration) : (a + b).nanos = a.nanos + b.nanos := rfl

theorem nanos_sub (a b : Duration) : (a - b).nanos = a.nanos - b.nanos := rfl

theorem nanos_min (a b : Duration) : (min a b).nanos = min a.nanos b.nanos := rfl

theorem nanos_ofMillis (n : Nat) : (ofMillis n).nanos = n * perMilli := rfl

theorem le_iff {a b : Duration} : a ≤ b ↔ a.nanos ≤ b.nanos := Iff.rfl

theorem lt_iff {a b : Duration} : a < b ↔ a.nanos < b.nanos := Iff.rfl

end Duration

variable {α ε : Type}

section Looks

variable (maxWait : Duration) (delay : Nat → Duration) (probe : Nat → Probe α ε)

/-- The time of a look, if waiting goes on until then. -/
def lookTime : Nat → Duration
  | 0 => .zero
  | i + 1 =>
    let now := lookTime i
    now + min (delay i) (maxWait - now)

/-- Waiting goes on after a look. -/
def GoesOn (i : Nat) : Prop :=
  probe i = .pending ∧ lookTime maxWait delay i < maxWait

/-- How waiting ends with a look. -/
def endAt (i : Nat) : WaitEnd α ε :=
  match probe i with
  | .ready value => .ready value
  | .failed error => .failed error
  | .pending => .timeout (lookTime maxWait delay i)

/-- No look is later than the time at which waiting is given up. -/
theorem lookTime_le (i : Nat) : lookTime maxWait delay i ≤ maxWait := by
  rw [Duration.le_iff]
  induction i with
  | zero => exact Nat.zero_le _
  | succ i ih =>
    rw [lookTime, Duration.nanos_add, Duration.nanos_min, Duration.nanos_sub]
    omega

variable {maxWait delay probe}

/-- No sleep is longer than the whole time of waiting, so it does not matter how long such a sleep
would last. -/
theorem pollFrom_eq {lasts : Duration → Duration} (hsleep : ∀ d ≤ maxWait, lasts d = d)
    (fuel i : Nat) (now : Duration) :
    pollFrom lasts maxWait delay probe fuel i now = pollFrom id maxWait delay probe fuel i now := by
  induction fuel generalizing i now with
  | zero => rfl
  | succ fuel ih =>
    have hle : min (delay i) (maxWait - now) ≤ maxWait := by
      rw [Duration.le_iff, Duration.nanos_min, Duration.nanos_sub]
      omega
    unfold pollFrom
    simp only [hsleep _ hle, ih, id_eq]

/-- Time is up exactly at one time. -/
theorem lookTime_eq_iff {i : Nat} :
    lookTime maxWait delay i = maxWait ↔ ¬ lookTime maxWait delay i < maxWait := by
  have hle := lookTime_le maxWait delay i
  rw [Duration.le_iff] at hle
  rw [← Duration.nanos_inj, Duration.lt_iff]
  omega

theorem pollFrom_of_goesOn {i : Nat} (h : GoesOn maxWait delay probe i) (fuel : Nat) :
    pollFrom id maxWait delay probe (fuel + 1) i (lookTime maxWait delay i) =
      (pollFrom id maxWait delay probe fuel (i + 1) (lookTime maxWait delay (i + 1))).after
        (lookTime maxWait delay i) := by
  obtain ⟨hpending, hlt⟩ := h
  rw [pollFrom, hpending]
  exact if_neg (Nat.not_le.mpr hlt)

theorem pollFrom_of_not_goesOn {i : Nat} (h : ¬ GoesOn maxWait delay probe i) (fuel : Nat) :
    pollFrom id maxWait delay probe (fuel + 1) i (lookTime maxWait delay i) =
      ⟨[lookTime maxWait delay i], endAt maxWait delay probe i⟩ := by
  rw [pollFrom, endAt]
  cases hprobe : probe i with
  | ready value => rfl
  | failed error => rfl
  | pending => exact if_pos (Nat.not_lt.mp fun hlt => h ⟨hprobe, hlt⟩)

/-- A run that is followed to its last look. -/
theorem pollFrom_of_last {fuel i last : Nat} (hle : i ≤ last) (hlt : last < i + fuel)
    (hbefore : ∀ j, i ≤ j → j < last → GoesOn maxWait delay probe j)
    (hlast : ¬ GoesOn maxWait delay probe last) :
    pollFrom id maxWait delay probe fuel i (lookTime maxWait delay i) =
      ⟨(List.range' i (last + 1 - i)).map (lookTime maxWait delay),
        endAt maxWait delay probe last⟩ := by
  induction fuel generalizing i with
  | zero => omega
  | succ fuel ih =>
    rcases Nat.eq_or_lt_of_le hle with rfl | hi
    · rw [pollFrom_of_not_goesOn hlast, Nat.add_sub_cancel_left]
      rfl
    · have hcount : last + 1 - i = (last + 1 - (i + 1)) + 1 := by omega
      rw [pollFrom_of_goesOn (hbefore i (Nat.le_refl i) hi), ih hi (by omega) fun j hj =>
        hbefore j (by omega), hcount, List.range'_succ]
      rfl

/-- A run that is not followed to its last look. -/
theorem pollFrom_of_all {fuel i : Nat}
    (h : ∀ j, i ≤ j → j < i + fuel → GoesOn maxWait delay probe j) :
    pollFrom id maxWait delay probe fuel i (lookTime maxWait delay i) =
      ⟨(List.range' i fuel).map (lookTime maxWait delay), .unfinished⟩ := by
  induction fuel generalizing i with
  | zero => rfl
  | succ fuel ih =>
    rw [pollFrom_of_goesOn (h i (Nat.le_refl i) (by omega)), ih fun j hj hj' =>
      h j (by omega) (by omega), List.range'_succ]
    rfl

/-- In whole milliseconds, each look is at least one later than the look before it, up to the time
at which waiting is given up. -/
theorem exists_lookTime_eq {m i : Nat} (hmax : maxWait = .ofMillis m)
    (hdelay : ∀ j < i, ∃ d, 0 < d ∧ delay j = .ofMillis d) :
    ∃ n, lookTime maxWait delay i = .ofMillis n ∧ min i m ≤ n := by
  induction i with
  | zero => exact ⟨0, rfl, by omega⟩
  | succ i ih =>
    obtain ⟨n, hn, hle⟩ := ih fun j hj => hdelay j (Nat.lt_succ_of_lt hj)
    obtain ⟨d, hpos, hd⟩ := hdelay i i.lt_succ_self
    refine ⟨n + min d (m - n), ?_, by omega⟩
    rw [lookTime, hn, hd, hmax, ← Duration.nanos_inj]
    simp only [Duration.nanos_add, Duration.nanos_sub, Duration.nanos_min, Duration.nanos_ofMillis,
      Nat.add_mul, ← Nat.mul_min_mul_right, Nat.sub_mul]

/-- Waiting does not go on after as many looks as there are milliseconds. -/
theorem not_goesOn_of_millis {m : Nat} (hmax : maxWait = .ofMillis m)
    (hdelay : ∀ j < m, ∃ d, 0 < d ∧ delay j = .ofMillis d) : ¬ GoesOn maxWait delay probe m := by
  rintro ⟨-, hlt⟩
  obtain ⟨n, hn, hle⟩ := exists_lookTime_eq hmax hdelay
  rw [hn, hmax] at hlt
  have hnm : n < m := Nat.lt_of_mul_lt_mul_right hlt
  omega

end Looks

/-- Clocks on which the sleeps of a run last as long as they are to give the same run. -/
theorem WaitSettings.poll_eq (w : WaitSettings) {lasts : Duration → Duration}
    (hsleep : ∀ d ≤ w.maxWait, lasts d = d) (probe : Nat → Probe α ε) :
    w.poll lasts probe = w.poll id probe :=
  pollFrom_eq hsleep maxProbes 0 .zero

/-- **A run is told by its last look.** Waiting goes on after every look before the last one, and
ends with what the last look finds, unless there are more looks than are followed. -/
theorem WaitSettings.poll_cases (w : WaitSettings) (probe : Nat → Probe α ε) :
    (∃ n < maxProbes, (∀ j < n, GoesOn w.maxWait w.backoff.delay probe j) ∧
      ¬ GoesOn w.maxWait w.backoff.delay probe n ∧
      w.poll id probe = ⟨(List.range (n + 1)).map (lookTime w.maxWait w.backoff.delay),
        endAt w.maxWait w.backoff.delay probe n⟩) ∨
    (∀ j < maxProbes, GoesOn w.maxWait w.backoff.delay probe j) ∧
      w.poll id probe =
        ⟨(List.range maxProbes).map (lookTime w.maxWait w.backoff.delay), .unfinished⟩ := by
  classical
  by_cases hend : ∃ n, n < maxProbes ∧ ¬ GoesOn w.maxWait w.backoff.delay probe n
  · obtain ⟨hlt, hnot⟩ := Nat.find_spec hend
    have hbefore : ∀ j < Nat.find hend, GoesOn w.maxWait w.backoff.delay probe j := fun j hj =>
      by_contra fun hj' => Nat.find_min hend hj ⟨Nat.lt_trans hj hlt, hj'⟩
    refine .inl ⟨Nat.find hend, hlt, hbefore, hnot, ?_⟩
    rw [List.range_eq_range']
    exact pollFrom_of_last (Nat.zero_le _) (by omega) (fun j _ => hbefore j) hnot
  · have hall : ∀ j < maxProbes, GoesOn w.maxWait w.backoff.delay probe j := fun j hj =>
      by_contra fun hj' => hend ⟨j, hj, hj'⟩
    refine .inr ⟨hall, ?_⟩
    rw [List.range_eq_range']
    exact pollFrom_of_all fun j _ hj => hall j (by omega)

namespace WaitSettings

variable (w : WaitSettings) (probe : Nat → Probe α ε)

/-- The looks are the first ones of those at the times `lookTime`. -/
theorem times_poll : ∃ count, 0 < count ∧
    (w.poll id probe).times = (List.range count).map (lookTime w.maxWait w.backoff.delay) := by
  rcases w.poll_cases probe with ⟨n, -, -, -, hrun⟩ | ⟨-, hrun⟩
  · exact ⟨n + 1, n.succ_pos, by rw [hrun]⟩
  · exact ⟨maxProbes, by decide, by rw [hrun]⟩

theorem getElem?_times_poll {i : Nat} {t : Duration} : (w.poll id probe).times[i]? = some t ↔
    i < (w.poll id probe).times.length ∧ lookTime w.maxWait w.backoff.delay i = t := by
  obtain ⟨count, -, htimes⟩ := w.times_poll probe
  rw [htimes, List.getElem?_map, List.length_map, List.length_range]
  by_cases hi : i < count
  · rw [List.getElem?_range hi, Option.map_some, Option.some.injEq]
    exact (and_iff_right hi).symm
  · rw [List.getElem?_eq_none (by rw [List.length_range]; omega)]
    exact iff_of_false (by simp) fun h => hi h.1

/-- There is a further look, unless waiting does not go on or is not followed. -/
theorem succ_lt_length_times_poll_iff {i : Nat} (hi : i < (w.poll id probe).times.length) :
    i + 1 < (w.poll id probe).times.length ↔
      GoesOn w.maxWait w.backoff.delay probe i ∧ i + 1 < maxProbes := by
  rcases w.poll_cases probe with ⟨n, hlt, hbefore, hlast, hrun⟩ | ⟨hall, hrun⟩
  · simp only [hrun, List.length_map, List.length_range] at hi ⊢
    constructor
    · exact fun h => ⟨hbefore i (by omega), by omega⟩
    · rintro ⟨hon, -⟩
      have hne : i ≠ n := fun heq => hlast (heq ▸ hon)
      omega
  · simp only [hrun, List.length_map, List.length_range] at hi ⊢
    exact ⟨fun h => ⟨hall i hi, h⟩, fun h => h.2⟩

/-- The looks before one that is made have found nothing. -/
theorem pending_of_lt {i j : Nat} (hi : i < (w.poll id probe).times.length) (hj : j < i) :
    probe j = .pending :=
  ((w.succ_lt_length_times_poll_iff probe (Nat.lt_trans hj hi)).mp (by omega)).1.1

/-- Waiting ends as the look says after which it does not go on. -/
theorem result_poll_iff {r : WaitEnd α ε} (hr : r ≠ .unfinished) : (w.poll id probe).result = r ↔
    ∃ i < (w.poll id probe).times.length, ¬ GoesOn w.maxWait w.backoff.delay probe i ∧
      endAt w.maxWait w.backoff.delay probe i = r := by
  rcases w.poll_cases probe with ⟨n, hlt, hbefore, hlast, hrun⟩ | ⟨hall, hrun⟩
  · simp only [hrun, List.length_map, List.length_range]
    constructor
    · exact fun h => ⟨n, n.lt_succ_self, hlast, h⟩
    · rintro ⟨i, hi, hnot, hend⟩
      rcases Nat.lt_succ_iff_lt_or_eq.mp hi with hi | rfl
      · exact absurd (hbefore i hi) hnot
      · exact hend
  · simp only [hrun, List.length_map, List.length_range]
    exact iff_of_false (Ne.symm hr) fun ⟨i, hi, hnot, _⟩ => hnot (hall i hi)

theorem endAt_eq_ready_iff {i : Nat} {value : α} :
    endAt w.maxWait w.backoff.delay probe i = .ready value ↔ probe i = .ready value := by
  unfold endAt
  cases probe i <;> simp

theorem endAt_eq_failed_iff {i : Nat} {error : ε} :
    endAt w.maxWait w.backoff.delay probe i = .failed error ↔ probe i = .failed error := by
  unfold endAt
  cases probe i <;> simp

theorem endAt_eq_timeout_iff {i : Nat} {waited : Duration} :
    endAt w.maxWait w.backoff.delay probe i = .timeout waited ↔
      probe i = .pending ∧ lookTime w.maxWait w.backoff.delay i = waited := by
  unfold endAt
  cases probe i <;> simp

/-- Waiting that has not ended went on after every look that was followed. -/
theorem goesOn_of_unfinished (h : (w.poll id probe).result = .unfinished) :
    (w.poll id probe).times.length = maxProbes ∧
      ∀ j < maxProbes, GoesOn w.maxWait w.backoff.delay probe j := by
  rcases w.poll_cases probe with ⟨n, -, -, -, hrun⟩ | ⟨hall, hrun⟩
  · rw [hrun] at h
    unfold endAt at h
    cases hprobe : probe n <;> simp [hprobe] at h
  · refine ⟨?_, hall⟩
    simp only [hrun, List.length_map, List.length_range]

/-- Waiting ends with what a look finds exactly if every look before it has found nothing. -/
theorem exists_look_iff {found : Probe α ε} {result : WaitEnd α ε} (hfound : found ≠ .pending)
    (hend : ∀ i, endAt w.maxWait w.backoff.delay probe i = result ↔ probe i = found) :
    (∃ i < (w.poll id probe).times.length, ¬ GoesOn w.maxWait w.backoff.delay probe i ∧
      endAt w.maxWait w.backoff.delay probe i = result) ↔
    ∃ i < (w.poll id probe).times.length, (∀ j < i, probe j = .pending) ∧ probe i = found := by
  constructor
  · rintro ⟨i, hi, -, h⟩
    exact ⟨i, hi, fun j => w.pending_of_lt probe hi, (hend i).mp h⟩
  · rintro ⟨i, hi, -, h⟩
    exact ⟨i, hi, fun hon => hfound (h.symm.trans hon.1), (hend i).mpr h⟩

/-- **Bounded waiting**, on a clock on which a sleep lasts as long as it is to. The first look is at
time zero, and after a look that finds nothing before time is up the next one follows after the
delay, or after what is left of the time if that is less. No look is later than the time at which
waiting is given up, and no look follows when waiting does not go on.

Waiting ends with the value or the error of the first look that finds one. It times out exactly if a
look at the very time at which it is given up, and every look before, has found nothing. In whole
milliseconds, with delays of at least one, it ends after at most one look more than there are
milliseconds. -/
theorem poll_bounded {lasts : Duration → Duration} (hsleep : ∀ d ≤ w.maxWait, lasts d = d) :
    let run := w.poll lasts probe
    run.times.head? = some .zero ∧
    (∀ i t, run.times[i]? = some t → probe i = .pending → t < w.maxWait → i + 1 < maxProbes →
      run.times[i + 1]? = some (t + min (w.backoff.delay i) (w.maxWait - t))) ∧
    (∀ t ∈ run.times, t ≤ w.maxWait) ∧
    (∀ i t, run.times[i]? = some t → probe i ≠ .pending ∨ t = w.maxWait →
      run.times.length = i + 1) ∧
    (∀ value, run.result = .ready value ↔
      ∃ i < run.times.length, (∀ j < i, probe j = .pending) ∧ probe i = .ready value) ∧
    (∀ error, run.result = .failed error ↔
      ∃ i < run.times.length, (∀ j < i, probe j = .pending) ∧ probe i = .failed error) ∧
    (∀ waited, run.result = .timeout waited ↔ waited = w.maxWait ∧
      ∃ i, run.times[i]? = some w.maxWait ∧ ∀ j ≤ i, probe j = .pending) ∧
    (run.result = .unfinished → run.times.length = maxProbes) ∧
    ∀ m, w.maxWait = .ofMillis m → (∀ i < m, ∃ d, 0 < d ∧ w.backoff.delay i = .ofMillis d) →
      run.times.length ≤ m + 1 ∧ (m < maxProbes → run.result ≠ .unfinished) := by
  rw [w.poll_eq hsleep probe]
  intro run
  have hnext : ∀ i < run.times.length, (i + 1 < run.times.length ↔
      GoesOn w.maxWait w.backoff.delay probe i ∧ i + 1 < maxProbes) :=
    fun i hi => w.succ_lt_length_times_poll_iff probe hi
  have htime : ∀ i t, run.times[i]? = some t ↔
      i < run.times.length ∧ lookTime w.maxWait w.backoff.delay i = t :=
    fun i t => w.getElem?_times_poll probe
  refine ⟨?_, fun i t ht hpending hlt hfollowed => ?_, fun t ht => ?_, fun i t ht hover => ?_,
    fun value => ?_, fun error => ?_, fun waited => ?_, fun hrun => ?_, fun m hmax hdelay => ?_⟩
  · obtain ⟨count, hpos, htimes⟩ := w.times_poll probe
    have hlength : 0 < run.times.length := by
      rwa [htimes, List.length_map, List.length_range]
    rw [List.head?_eq_getElem?]
    exact (htime 0 _).mpr ⟨hlength, rfl⟩
  · obtain ⟨hi, rfl⟩ := (htime i t).mp ht
    exact (htime (i + 1) _).mpr ⟨(hnext i hi).mpr ⟨⟨hpending, hlt⟩, hfollowed⟩, rfl⟩
  · obtain ⟨i, ht⟩ := List.mem_iff_getElem?.mp ht
    obtain ⟨-, rfl⟩ := (htime i t).mp ht
    exact lookTime_le _ _ i
  · obtain ⟨hi, rfl⟩ := (htime i t).mp ht
    have hnot : ¬ i + 1 < run.times.length := fun h => by
      obtain ⟨⟨hpending, hlt⟩, -⟩ := (hnext i hi).mp h
      exact hover.elim (fun hfound => hfound hpending) fun hup => lookTime_eq_iff.mp hup hlt
    omega
  · rw [w.result_poll_iff probe (by simp)]
    exact w.exists_look_iff probe (by simp) fun i => w.endAt_eq_ready_iff probe
  · rw [w.result_poll_iff probe (by simp)]
    exact w.exists_look_iff probe (by simp) fun i => w.endAt_eq_failed_iff probe
  · rw [w.result_poll_iff probe (by simp)]
    constructor
    · rintro ⟨i, hi, hnot, hend⟩
      obtain ⟨hpending, rfl⟩ := (w.endAt_eq_timeout_iff probe).mp hend
      have hup : lookTime w.maxWait w.backoff.delay i = w.maxWait :=
        lookTime_eq_iff.mpr fun hlt => hnot ⟨hpending, hlt⟩
      refine ⟨hup, i, (htime i _).mpr ⟨hi, hup⟩, fun j hj => ?_⟩
      rcases Nat.lt_or_eq_of_le hj with hj | rfl
      · exact w.pending_of_lt probe hi hj
      · exact hpending
    · rintro ⟨rfl, i, ht, hpending⟩
      obtain ⟨hi, hup⟩ := (htime i _).mp ht
      exact ⟨i, hi, fun hon => lookTime_eq_iff.mp hup hon.2,
        (w.endAt_eq_timeout_iff probe).mpr ⟨hpending i (Nat.le_refl i), hup⟩⟩
  · exact (w.goesOn_of_unfinished probe hrun).1
  · have hnot : ¬ GoesOn w.maxWait w.backoff.delay probe m := not_goesOn_of_millis hmax hdelay
    refine ⟨?_, fun hm hrun => hnot ((w.goesOn_of_unfinished probe hrun).2 m hm)⟩
    by_contra hmore
    exact hnot ((hnext m (by omega)).mp (by omega)).1

/-- Delays of 1, 2 and 4 milliseconds, and the last one cut short to 3. -/
theorem poll_bounded_doubling :
    let w : WaitSettings := ⟨.ofMillis 10, ⟨.ofMillis 1, .ofMillis 4, 2.0⟩⟩
    let probe : Nat → Probe Unit Unit := fun _ => .pending
    (∀ d ≤ w.maxWait, id d = d) ∧
      (w.poll id probe).times = [.zero, .ofMillis 1, .ofMillis 3, .ofMillis 7, .ofMillis 10] ∧
      (w.poll id probe).times[4]? = some (.ofMillis 7 +
        min (w.backoff.delay 3) (w.maxWait - .ofMillis 7)) ∧
      (w.poll id probe).result = .timeout (.ofMillis 10) ∧
      (∀ i < 10, ∃ d, 0 < d ∧ w.backoff.delay i = .ofMillis d) ∧
      (w.poll id probe).times.length ≤ 11 ∧ (w.poll id probe).result ≠ .unfinished := by
  intro w probe
  have htimes : (w.poll id probe).times =
      [.zero, .ofMillis 1, .ofMillis 3, .ofMillis 7, .ofMillis 10] := by
    decide +kernel
  have hdelay : ∀ i < 10, ∃ d, 0 < d ∧ w.backoff.delay i = .ofMillis d := by
    have hall : ∀ i < 10, 0 < (w.backoff.delay i).millis ∧
        w.backoff.delay i = .ofMillis (w.backoff.delay i).millis := by decide +kernel
    exact fun i hi => ⟨_, hall i hi⟩
  have hsleep : ∀ d ≤ w.maxWait, id d = d := fun _ _ => rfl
  obtain ⟨-, hnext, -, -, -, -, htimeout, -, hbound⟩ := w.poll_bounded probe hsleep
  refine ⟨hsleep, htimes, ?_, ?_, hdelay, (hbound 10 rfl hdelay).1,
    (hbound 10 rfl hdelay).2 (by decide)⟩
  · exact hnext 3 (.ofMillis 7) (by rw [htimes]; rfl) rfl (by decide) (by decide)
  · exact (htimeout _).mpr ⟨rfl, 4, by rw [htimes]; rfl, fun j _ => rfl⟩

end WaitSettings

end Reconcile
