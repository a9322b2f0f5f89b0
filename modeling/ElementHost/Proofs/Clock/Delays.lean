import ElementHost.Clock.Delay
import ElementHost.Proofs.Clock.Readings
import Mathlib.Algebra.Order.Floor.Div
import Mathlib.Logic.Function.Iterate

/-!
# How long a delay on a counter takes

A delay on a millisecond counter rounds its request up, reads the counter once, and reads it again
until the difference of two readings exceeds the request.  The counter has 32 bits, and so does the
difference.

* `TimeUnit.inMilli`, what a unit is worth; `TimeUnit.toNat_wholeMillis`, the rounding, and
  `TimeUnit.longest_iff`, the longest request;
* `Delay.request`, the three kinds of requests;
* `Passage`, a world in which a time line passes, and `Timeline.uptime`, a counter in it;
* `Timeline.run_waitBeyond_add`, `Timeline.exists_over_of_run_waitBeyond`, how a wait goes on and
  how it ends;
* `Timeline.delayFrom`, `Timeline.delay`, the delays, and `delay_exact`, how long they take;
* `steady`, `steadyUptime`, a counter that moves on by one with each reading, and
  `steadyDelay_outcome`, which delays on it end, and when.
-/

namespace ElementHost

/-! ### Requests in a unit -/

namespace TimeUnit

/-- How many of a unit there are in a millisecond. -/
def inMilli : TimeUnit → ℕ
  | .nanos => 1000000
  | .micros => 1000
  | .millis => 1

theorem inMilli_pos (unit : TimeUnit) : 0 < unit.inMilli := by
  cases unit <;> decide

/-- A delay reckons with as many as there are. -/
theorem toNat_perMilli (unit : TimeUnit) : unit.perMilli.toNat = unit.inMilli := by
  cases unit <;> rfl

/-- A request is rounded up to whole milliseconds. -/
theorem toNat_wholeMillis (unit : TimeUnit) (amount : UInt32) :
    (unit.wholeMillis amount).toNat = amount.toNat ⌈/⌉ unit.inMilli := by
  have hamount : amount.toNat < 2 ^ 32 := amount.toNat_lt
  have hmod : amount % unit.perMilli = 0 ↔ amount.toNat % unit.inMilli = 0 := by
    rw [← UInt32.toNat_inj, UInt32.toNat_mod, toNat_perMilli]
    rfl
  have hdiv : (amount / unit.perMilli).toNat = amount.toNat / unit.inMilli := by
    rw [UInt32.toNat_div, toNat_perMilli]
  rw [Nat.ceilDiv_eq_add_pred_div, wholeMillis]
  by_cases hwhole : amount % unit.perMilli = 0
  · rw [if_pos hwhole, hdiv]
    rw [hmod] at hwhole
    cases unit <;> simp only [inMilli] at hwhole ⊢ <;> omega
  · rw [if_neg hwhole, UInt32.toNat_add, hdiv]
    rw [hmod] at hwhole
    cases unit <;> simp only [inMilli, UInt32.reduceToNat] at hwhole ⊢ <;> omega

/-- Only a request for nothing is rounded to nothing. -/
theorem wholeMillis_eq_zero_iff (unit : TimeUnit) (amount : UInt32) :
    unit.wholeMillis amount = 0 ↔ amount = 0 := by
  rw [← UInt32.toNat_inj, ← UInt32.toNat_inj, toNat_wholeMillis]
  show _ ⌈/⌉ _ = 0 ↔ _ = 0
  rw [← Nat.le_zero, ceilDiv_le_iff_le_mul unit.inMilli_pos, Nat.mul_zero, Nat.le_zero]

/-- Of all requests, only one is rounded to the largest number there is. -/
theorem longest_iff (unit : TimeUnit) (amount : UInt32) :
    (unit.wholeMillis amount).toNat = 2 ^ 32 - 1 ↔
      unit = .millis ∧ amount.toNat = 2 ^ 32 - 1 := by
  have hamount : amount.toNat < 2 ^ 32 := amount.toNat_lt
  rw [toNat_wholeMillis, Nat.ceilDiv_eq_add_pred_div]
  cases unit <;> simp only [inMilli, reduceCtorEq, false_and, true_and, iff_false] <;> omega

end TimeUnit

/-- A request for an amount of a unit. -/
def Delay.request {m : Type → Type} (delay : Delay m) : TimeUnit → UInt32 → m Unit
  | .nanos => delay.nanos
  | .micros => delay.micros
  | .millis => delay.millis

theorem Delay.request_eq_wait {m : Type → Type} (delay : Delay m) (unit : TimeUnit)
    (amount : UInt32) : delay.request unit amount = delay.wait unit amount := by
  cases unit <;> rfl

/-! ### Readings in a world -/

/-- A world in which a time line passes: the number of the next reading, and what is different after
it. -/
structure Passage (σ : Type) where
  moment : σ → ℕ
  read : σ → σ
  moment_read (s : σ) : moment (read s) = moment s + 1

/-- A world that counts its readings. -/
def Passage.counting : Passage ℕ := ⟨id, (· + 1), fun _ => rfl⟩

/-- The readings so far are as many as there were. -/
theorem Passage.counting_iterate (readings : ℕ) : counting.read^[readings] 0 = readings := by
  induction readings with
  | zero => rfl
  | succ readings ih =>
    rw [Function.iterate_succ_apply', ih]
    rfl

variable {σ : Type}

namespace Timeline

/-- The counter of a time line. -/
def uptime (t : Timeline) (passage : Passage σ) : Uptime (StateM σ) where
  millis := modifyGet fun s => (t.reading (passage.moment s), passage.read s)

variable (t : Timeline) (passage : Passage σ) {start ms : UInt32} {bound : ℕ} {s s' : σ}

/-- One turn of a wait. -/
theorem run_waitBeyond_succ :
    ((t.uptime passage).waitBeyond start ms (bound + 1)).run.run s =
      if t.reading (passage.moment s) - start ≤ ms then
        ((t.uptime passage).waitBeyond start ms bound).run.run (passage.read s)
      else (some (), passage.read s) := by
  rw [Uptime.waitBeyond]
  show (if t.reading (passage.moment s) - start ≤ ms then
    (t.uptime passage).waitBeyond start ms bound
    else pure () : OptionT (StateM σ) Unit).run.run (passage.read s) = _
  split <;> rfl

/-- A wait goes on as long as no reading shows that its time is over. -/
theorem run_waitBeyond_add {more : ℕ}
    (h : ∀ i < more, t.reading (passage.moment s + i) - start ≤ ms) (bound : ℕ) :
    ((t.uptime passage).waitBeyond start ms (more + bound)).run.run s =
      ((t.uptime passage).waitBeyond start ms bound).run.run (passage.read^[more] s) := by
  induction more generalizing s with
  | zero => rw [Nat.zero_add, Function.iterate_zero_apply]
  | succ more ih =>
    have hnow : t.reading (passage.moment s) - start ≤ ms := h 0 (Nat.succ_pos _)
    rw [Nat.succ_add, run_waitBeyond_succ, if_pos hnow, ih, Function.iterate_succ_apply]
    intro i hi
    rw [passage.moment_read, Nat.add_assoc, Nat.add_comm 1]
    exact h (i + 1) (Nat.succ_lt_succ hi)

/-- A wait that ends has seen a reading that shows that its time is over. -/
theorem exists_over_of_run_waitBeyond
    (h : ((t.uptime passage).waitBeyond start ms bound).run.run s = (some (), s')) :
    ∃ more, ms < t.reading (passage.moment s + more) - start ∧ s' = passage.read^[more + 1] s := by
  induction bound generalizing s with
  | zero => cases h
  | succ bound ih =>
    rw [run_waitBeyond_succ] at h
    split at h
    · obtain ⟨more, hover, rfl⟩ := ih h
      rw [passage.moment_read, Nat.add_assoc, Nat.add_comm 1] at hover
      exact ⟨more + 1, hover, rfl⟩
    · next hnot =>
      cases h
      exact ⟨0, UInt32.not_le.1 hnot, rfl⟩

/-! ### Delays -/

/-- A delay that starts somewhere on a time line: whether it comes to its end, and the world
then. -/
def delayFrom (unit : TimeUnit) (amount : UInt32) (bound : ℕ) (s : σ) : Option Unit × σ :=
  (((t.uptime passage).delay bound).request unit amount).run.run s

variable {unit : TimeUnit} {amount : UInt32}

theorem delayFrom_zero : t.delayFrom passage unit 0 bound s = (some (), s) := by
  cases unit <;> rfl

theorem delayFrom_of_ne_zero (h : amount ≠ 0) :
    t.delayFrom passage unit amount bound s =
      ((t.uptime passage).waitBeyond (t.reading (passage.moment s)) (unit.wholeMillis amount)
        bound).run.run (passage.read s) := by
  have hne : unit.wholeMillis amount ≠ 0 := (unit.wholeMillis_eq_zero_iff amount).not.2 h
  rw [delayFrom, Delay.request_eq_wait]
  show (Uptime.waitMillis (t.uptime passage) bound (unit.wholeMillis amount)).run.run s = _
  rw [Uptime.waitMillis, if_pos hne]
  rfl

/-- A delay that comes to its end has taken more than the whole milliseconds that cover it. -/
theorem lt_time_of_delayFrom (h : amount ≠ 0)
    (hends : t.delayFrom passage unit amount bound s = (some (), s')) :
    ∃ last, 1 ≤ last ∧ s' = passage.read^[last + 1] s ∧
      (unit.wholeMillis amount).toNat <
        t.time (passage.moment s + last) - t.time (passage.moment s) := by
  rw [delayFrom_of_ne_zero t passage h] at hends
  obtain ⟨more, hover, rfl⟩ := t.exists_over_of_run_waitBeyond passage hends
  refine ⟨more + 1, Nat.le_add_left .., rfl, ?_⟩
  rw [passage.moment_read, Nat.add_assoc, Nat.add_comm 1, UInt32.lt_iff_toNat_lt,
    t.toNat_reading_sub (Nat.le_add_right ..)] at hover
  exact Nat.lt_of_lt_of_le hover (Nat.mod_le _ _)

/-- A delay that comes to its end has lasted long enough from its first reading to its last one,
even if the first millisecond had almost passed. -/
theorem covered_of_delayFrom (hends : t.delayFrom passage unit amount bound s = (some (), s')) :
    ∃ readings, s' = passage.read^[readings] s ∧
      amount.toNat ≤ unit.inMilli *
        (t.time (passage.moment s + readings - 1) - t.time (passage.moment s) - 1) := by
  by_cases h : amount = 0
  · subst h
    rw [delayFrom_zero] at hends
    cases hends
    exact ⟨0, rfl, Nat.zero_le _⟩
  · obtain ⟨last, -, hreadings, hover⟩ := t.lt_time_of_delayFrom passage h hends
    refine ⟨last + 1, hreadings, ?_⟩
    rw [unit.toNat_wholeMillis] at hover
    exact (ceilDiv_le_iff_le_mul unit.inMilli_pos).1 (Nat.le_sub_one_of_lt hover)

/-- Less time than a number of milliseconds has passed by the readings if it has in truth. -/
theorem reading_sub_le {ms : UInt32} {i : ℕ} (h : t.elapsed i ≤ ms.toNat) :
    t.reading i - t.reading 0 ≤ ms := by
  rw [UInt32.le_iff_toNat_le, t.toNat_reading_sub (Nat.zero_le i)]
  exact Nat.le_trans (Nat.mod_le _ _) h

/-- A number of milliseconds that has been exceeded for the first time is exceeded by the readings
as well. -/
theorem lt_reading_sub_of_first {ms : UInt32} {last : ℕ}
    (hearlier : ∀ i, 1 ≤ i → i < last → t.elapsed i ≤ ms.toNat)
    (hgap : t.GapsWithin (2 ^ 32 - 1 - ms.toNat) last) (hover : ms.toNat < t.elapsed last) :
    ms < t.reading last - t.reading 0 := by
  have hms : ms.toNat < 2 ^ 32 := ms.toNat_lt
  have hround : t.elapsed last < 2 ^ 32 := by
    refine t.elapsed_lt_of_first (Nat.succ_pos ms.toNat) hms ?_ ?_
    · intro i hi hlt
      exact Nat.lt_succ_of_le (hearlier i hi hlt)
    · rwa [Nat.sub_sub, Nat.add_comm 1] at hgap
  rw [UInt32.lt_iff_toNat_lt, t.toNat_reading_sub (Nat.zero_le last)]
  exact Nat.lt_of_lt_of_eq hover (Nat.mod_eq_of_lt hround).symm

/-- A delay: whether it comes to its end, and how many readings it takes. -/
def delay (unit : TimeUnit) (amount : UInt32) (bound : ℕ) : Option Unit × ℕ :=
  t.delayFrom .counting unit amount bound 0

/-- A delay goes on as long as no reading shows that its time is over. -/
theorem delay_add {more : ℕ} (h : amount ≠ 0)
    (hbefore : ∀ i < more, t.reading (i + 1) - t.reading 0 ≤ unit.wholeMillis amount)
    (bound : ℕ) :
    t.delay unit amount (more + bound) =
      ((t.uptime .counting).waitBeyond (t.reading 0) (unit.wholeMillis amount) bound).run.run
        (more + 1) := by
  have hcount : Passage.counting.read^[more] (Passage.counting.read 0) = more + 1 :=
    Passage.counting_iterate (more + 1)
  rw [delay, delayFrom_of_ne_zero t .counting h, run_waitBeyond_add, hcount]
  · rfl
  · intro i hi
    show t.reading (0 + 1 + i) - t.reading 0 ≤ _
    rw [Nat.zero_add, Nat.add_comm]
    exact hbefore i hi

/-- The first reading at which a delay is over in truth ends it, if the counter is read often
enough. -/
theorem delay_of_first {last bound : ℕ} (h : amount ≠ 0)
    (hearlier : ∀ i < last, t.elapsed i ≤ (unit.wholeMillis amount).toNat)
    (hgap : t.GapsWithin (2 ^ 32 - 1 - (unit.wholeMillis amount).toNat) last)
    (hover : (unit.wholeMillis amount).toNat < t.elapsed last) (hbound : last ≤ bound) :
    t.delay unit amount bound = (some (), last + 1) := by
  have hpassed : unit.wholeMillis amount < t.reading last - t.reading 0 :=
    t.lt_reading_sub_of_first (fun i _ hlt => hearlier i hlt) hgap hover
  cases last with
  | zero =>
    rw [t.elapsed_zero] at hover
    cases hover
  | succ more =>
    obtain ⟨rest, rfl⟩ := Nat.exists_eq_add_of_le hbound
    have hsplit : more + 1 + rest = more + (rest + 1) := by omega
    rw [hsplit, t.delay_add h, run_waitBeyond_succ]
    · exact if_neg (UInt32.not_le.2 hpassed)
    · intro i hi
      exact t.reading_sub_le (hearlier (i + 1) (Nat.succ_lt_succ hi))

/-- A delay that no reading ends uses up its bound. -/
theorem delay_of_never {bound : ℕ} (h : amount ≠ 0)
    (hnever : ∀ i < bound, t.reading (i + 1) - t.reading 0 ≤ unit.wholeMillis amount) :
    t.delay unit amount bound = (none, bound + 1) :=
  t.delay_add h hnever 0

end Timeline

/-- **A delay is long enough, and no longer than it must be.**  Let a counter show the low 32 bits
of a time that never runs backwards.  A request for nothing reads it not at all.  Any other request
is rounded up to whole milliseconds, of 1000000 nanoseconds or 1000 microseconds each, and its delay
ends only at a reading by which more than that many have passed since the first; so it is long
enough even if the first millisecond had almost passed.  Now let the time between two readings never
be longer than what one more than these milliseconds lacks to a whole round of the counter.  Then
the delay ends with the first reading by which more than these milliseconds have passed, wherever
the counter comes round. -/
theorem delay_exact (t : Timeline) (unit : TimeUnit) (amount : UInt32) :
    let ms := amount.toNat ⌈/⌉ unit.inMilli
    (amount = 0 → ∀ bound, t.delay unit amount bound = (some (), 0)) ∧
    (amount ≠ 0 →
      (∀ bound readings, t.delay unit amount bound = (some (), readings) →
        ∃ last, 1 ≤ last ∧ readings = last + 1 ∧ ms < t.elapsed last ∧
          amount.toNat ≤ unit.inMilli * (t.elapsed last - 1)) ∧
      ∀ last, t.GapsWithin (2 ^ 32 - 1 - ms) last → ms < t.elapsed last →
        (∀ i < last, t.elapsed i ≤ ms) →
        ∀ bound, last ≤ bound → t.delay unit amount bound = (some (), last + 1)) := by
  intro ms
  have hms : (unit.wholeMillis amount).toNat = ms := unit.toNat_wholeMillis amount
  refine ⟨?_, fun hne => ⟨?_, ?_⟩⟩
  · rintro rfl bound
    exact t.delayFrom_zero .counting
  · intro bound readings h
    obtain ⟨last, hlast, hreadings, hover⟩ := t.lt_time_of_delayFrom .counting hne h
    rw [Passage.counting_iterate] at hreadings
    have helapsed : ms < t.elapsed last := by
      have hmoment : Passage.counting.moment 0 + last = last := Nat.zero_add last
      rwa [hms, hmoment] at hover
    have henough : ms ≤ t.elapsed last - 1 := Nat.le_sub_one_of_lt helapsed
    refine ⟨last, hlast, hreadings, helapsed, ?_⟩
    exact (ceilDiv_le_iff_le_mul unit.inMilli_pos).1 henough
  · intro last hgap hover hearlier bound hbound
    rw [← hms] at hgap hover
    refine t.delay_of_first hne ?_ hgap hover hbound
    rwa [hms]

/-- A counter that is read every 3 milliseconds and comes round after the second reading. -/
def roundingTimeline : Timeline where
  time i := 4294967290 + 3 * i
  monotone i j h := by
    show 4294967290 + 3 * i ≤ 4294967290 + 3 * j
    omega

/-- Four and a half milliseconds are over by the third reading, after 6 of them. -/
theorem delay_exact_roundingTimeline :
    roundingTimeline.delay .micros 4500 2 = (some (), 3) ∧
      ∃ last, 1 ≤ last ∧ 3 = last + 1 ∧ 5 < roundingTimeline.elapsed last ∧
        4500 ≤ 1000 * (roundingTimeline.elapsed last - 1) := by
  obtain ⟨hlong, hshort⟩ := (delay_exact roundingTimeline .micros 4500).2 (by decide)
  have hgap : roundingTimeline.GapsWithin (2 ^ 32 - 1 - 5) 2 := by
    intro i _
    show 4294967290 + 3 * (i + 1) ≤ 4294967290 + 3 * i + (2 ^ 32 - 1 - 5)
    omega
  have hends := hshort 2 hgap (by decide) (by decide) 2 (Nat.le_refl 2)
  exact ⟨hends, hlong 2 3 hends⟩

/-! ### A counter that moves on by one -/

/-- The time line of a counter that moves on by one with each reading. -/
def steady (start : UInt32) : Timeline where
  time i := start.toNat + i
  monotone _ _ h := Nat.add_le_add_left h _

theorem reading_steady (start : UInt32) (i : ℕ) :
    (steady start).reading i = start + i.toUInt32 := by
  show UInt32.ofNat (start.toNat + i) = start + UInt32.ofNat i
  rw [UInt32.ofNat_add, UInt32.ofNat_toNat]

theorem elapsed_steady (start : UInt32) (i : ℕ) : (steady start).elapsed i = i :=
  Nat.add_sub_cancel_left ..

/-- A counter that moves on by one with each reading, and comes round.  The readings are counted. -/
def steadyUptime (start : UInt32) : Uptime (StateM ℕ) where
  millis := modifyGet fun readings => (start + readings.toUInt32, readings + 1)

theorem uptime_steady (start : UInt32) : (steady start).uptime .counting = steadyUptime start := by
  rw [steadyUptime]
  simp only [← reading_steady]
  rfl

/-- A delay on such a counter: whether it comes to its end, and how many readings it takes. -/
def steadyDelay (start : UInt32) (unit : TimeUnit) (amount : UInt32) (bound : ℕ) :
    Option Unit × ℕ :=
  (((steadyUptime start).delay bound).request unit amount).run.run 0

section Steady

variable {start amount : UInt32} {unit : TimeUnit} {bound : ℕ}

theorem steadyDelay_eq_delay :
    steadyDelay start unit amount bound = (steady start).delay unit amount bound := by
  rw [steadyDelay, ← uptime_steady]
  rfl

theorem steadyDelay_zero : steadyDelay start unit 0 bound = (some (), 0) := by
  rw [steadyDelay_eq_delay]
  exact (steady start).delayFrom_zero .counting

/-- A delay is over by the first reading that shows more than its milliseconds, if a counter can
show so many. -/
theorem steadyDelay_of_lt (h : amount ≠ 0) (hms : (unit.wholeMillis amount).toNat ≠ 2 ^ 32 - 1)
    (hbound : (unit.wholeMillis amount).toNat < bound) :
    steadyDelay start unit amount bound = (some (), (unit.wholeMillis amount).toNat + 2) := by
  have hlt : (unit.wholeMillis amount).toNat < 2 ^ 32 := (unit.wholeMillis amount).toNat_lt
  rw [steadyDelay_eq_delay]
  refine (steady start).delay_of_first h ?_ ?_ ?_ hbound
  · intro i hi
    rw [elapsed_steady]
    exact Nat.le_of_lt_succ hi
  · intro i _
    show start.toNat + (i + 1) ≤ start.toNat + i + _
    omega
  · rw [elapsed_steady]
    exact Nat.lt_succ_self _

/-- A delay uses up its bound if the bound is too small, or if no counter can show more than its
milliseconds. -/
theorem steadyDelay_of_never (h : amount ≠ 0)
    (hnever : bound ≤ (unit.wholeMillis amount).toNat ∨
      (unit.wholeMillis amount).toNat = 2 ^ 32 - 1) :
    steadyDelay start unit amount bound = (none, bound + 1) := by
  rw [steadyDelay_eq_delay]
  refine (steady start).delay_of_never h ?_
  intro i hi
  rcases hnever with hbound | hlongest
  · refine (steady start).reading_sub_le ?_
    rw [elapsed_steady]
    omega
  · rw [UInt32.le_iff_toNat_le, hlongest]
    exact Nat.le_sub_one_of_lt (UInt32.toNat_lt _)

end Steady

/-- **Only the longest delay never ends.**  Let a counter move on by one with each reading, from
any start, and come round.  A delay for nothing does not read it.  Any other delay ends with the
reading that is two more than its whole milliseconds, if it is let go on for so long, unless these
milliseconds are the largest number that the counter can show: then it reads the counter for ever.
Of all requests there are, only the longest one in milliseconds is of this kind. -/
theorem steadyDelay_outcome (start : UInt32) (unit : TimeUnit) (amount : UInt32) :
    let ms := amount.toNat ⌈/⌉ unit.inMilli
    (∀ bound, steadyDelay start unit amount bound =
      if amount = 0 then (some (), 0)
      else if ms < bound ∧ ms ≠ 2 ^ 32 - 1 then (some (), ms + 2)
      else (none, bound + 1)) ∧
    (ms = 2 ^ 32 - 1 ↔ unit = .millis ∧ amount.toNat = 2 ^ 32 - 1) := by
  intro ms
  have hms : (unit.wholeMillis amount).toNat = ms := unit.toNat_wholeMillis amount
  constructor
  · intro bound
    by_cases hzero : amount = 0
    · rw [if_pos hzero, hzero]
      exact steadyDelay_zero
    · rw [if_neg hzero]
      by_cases hends : ms < bound ∧ ms ≠ 2 ^ 32 - 1
      · rw [if_pos hends, ← hms]
        rw [← hms] at hends
        exact steadyDelay_of_lt hzero hends.2 hends.1
      · rw [if_neg hends]
        refine steadyDelay_of_never hzero ?_
        rw [hms]
        omega
  · rw [← hms]
    exact unit.longest_iff amount

/-- Every delay ends after the readings that its whole milliseconds take. -/
def EveryDelayEnds : Prop :=
  ∀ (start : UInt32) (unit : TimeUnit) (amount : UInt32), ∃ bound,
    steadyDelay start unit amount bound =
      (some (), if amount = 0 then 0 else amount.toNat ⌈/⌉ unit.inMilli + 2)

/-- The longest delay in milliseconds does not end. -/
theorem not_everyDelayEnds_longest : ¬ EveryDelayEnds := by
  intro h
  obtain ⟨bound, hends⟩ := h 0 .millis 4294967295
  have hnever : steadyDelay 0 .millis 4294967295 bound = (none, bound + 1) :=
    steadyDelay_of_never (by decide) (.inr (by decide))
  rw [hnever] at hends
  cases hends

end ElementHost
