import ElementHost.Completion.Wait
import ElementHost.Proofs.Clock.Readings
import ElementHost.Proofs.Completion.Assignment
import Mathlib.Data.Nat.Find

/-!
# Waiting until a deadline

A wait with a timeout polls the completion and reads the clock in turn, while others publish and arm
whenever they like.  Whatever they do between two polls counts as done during the reading that lies
between them.

* `run_waitFrom_of_result`, `run_waitFrom_of_busy`, one turn of the wait;
* `Schedule`, the time and what others do at each reading, and `Schedule.seen`, what is polled;
* `Schedule.wait`, the wait, and `Schedule.loop`, what is left of it after some readings;
* `Schedule.Honest`, what the wait may end with;
* `Schedule.WaitsTill`, `Schedule.loop_eq_of_waiting`, how long it goes on;
* `deadline_exact`, when it ends, and how.
-/

namespace ElementHost.Completion

section Turns

variable {n : Type → Type} [Monad n] [LawfulMonad n] {uptime : Uptime (StateT Completion n)}
  {start timeout : UInt32} {c : Completion}

theorem run_looked {α : Type} (f : Completion → OptionT (StateT Completion n) α) (c : Completion) :
    (getThe Completion >>= f : OptionT (StateT Completion n) α).run.run c = (f c).run.run c := by
  show (OptionT.lift get >>= f : OptionT (StateT Completion n) α).run.run c = _
  simp [Option.elimM]

/-- A poll that finds a result ends the wait. -/
theorem run_waitFrom_of_result {status : Status} (h : c.result = some status) (bound : ℕ) :
    (waitFrom uptime start timeout (bound + 1)).run.run c = pure (some (.ok status), c) := by
  rw [waitFrom, run_looked, h]
  simp

/-- After a poll that finds none the clock is read, and the wait goes on unless its time is over. -/
theorem run_waitFrom_of_busy (h : c.result = none) (bound : ℕ) :
    (waitFrom uptime start timeout (bound + 1)).run.run c =
      uptime.millis.run c >>= fun (now, c) =>
        if timeout ≤ now - start then pure (some (.error .timedOut), c)
        else (waitFrom uptime start timeout bound).run.run c := by
  rw [waitFrom, run_looked, h]
  simp only [Uptime.hasPassed, Uptime.since, OptionT.run_bind, Option.elimM, StateT.run_bind,
    bind_pure_comp, Functor.map_map, liftM_map, OptionT.run_monadLift, monadLift_self,
    bind_map_left, Option.elim_some, decide_eq_true_eq]
  refine bind_congr fun reading => ?_
  split <;> simp

end Turns

/-! ### Schedules -/

/-- The time at each reading of a clock, and what others do to a completion meanwhile. -/
structure Schedule extends Timeline where
  calls : ℕ → List Call

namespace Schedule

/-- What others do to a completion during a reading. -/
def disturb (t : Schedule) (reading : ℕ) (c : Completion) : Completion :=
  (t.calls reading).foldl (fun c call => (call.exec c).2) c

/-- The clock.  The number of readings so far is kept. -/
def uptime (t : Schedule) : Uptime (StateT Completion (StateM ℕ)) where
  millis := do
    let readings ← modifyGetThe ℕ fun readings => (readings, readings + 1)
    modifyThe Completion (t.disturb readings)
    return t.reading readings

/-- The completion after some readings, if nobody but others does anything to it. -/
def seen (t : Schedule) (c : Completion) : ℕ → Completion
  | 0 => c
  | readings + 1 => t.disturb readings (t.seen c readings)

/-- Waits with a timeout and a bound on the polls; what comes of it, the completion then, and the
number of readings. -/
def wait (t : Schedule) (c : Completion) (timeout : UInt32) (bound : ℕ) :
    (Option (Except TimedOut Status) × Completion) × ℕ :=
  ((waitUntil t.uptime timeout bound).run.run c).run 0

/-- What is left of the wait after some readings. -/
def loop (t : Schedule) (c : Completion) (timeout : UInt32) (readings bound : ℕ) :
    (Option (Except TimedOut Status) × Completion) × ℕ :=
  ((waitFrom t.uptime (t.reading 0) timeout bound).run.run (t.seen c readings)).run readings

section Loop

variable (t : Schedule) (c : Completion) (timeout : UInt32) {readings : ℕ}

theorem wait_eq_loop (bound : ℕ) : t.wait c timeout bound = t.loop c timeout 1 bound := rfl

theorem loop_of_result {status : Status} (h : (t.seen c readings).result = some status)
    (bound : ℕ) :
    t.loop c timeout readings (bound + 1) =
      ((some (.ok status), t.seen c readings), readings) := by
  rw [loop, run_waitFrom_of_result h]
  rfl

theorem loop_of_busy (h : (t.seen c readings).result = none) (bound : ℕ) :
    t.loop c timeout readings (bound + 1) =
      if timeout ≤ t.reading readings - t.reading 0 then
        ((some (.error .timedOut), t.seen c (readings + 1)), readings + 1)
      else t.loop c timeout (readings + 1) bound := by
  have hmillis : (t.uptime.millis.run (t.seen c readings)).run readings =
      ((t.reading readings, t.seen c (readings + 1)), readings + 1) := rfl
  rw [loop, run_waitFrom_of_busy h, StateT.run_bind, hmillis]
  show (if _ then _ else _ : StateM ℕ _).run (readings + 1) = _
  split <;> rfl

/-- What the wait may end with: the completion as the others leave it; a timeout that is over at the
last reading; or a result that was polled. -/
structure Honest (outcome : (Option (Except TimedOut Status) × Completion) × ℕ) : Prop where
  untouched : outcome.1.2 = t.seen c outcome.2
  late : outcome.1.1 = some (.error .timedOut) →
    ∃ last, 1 ≤ last ∧ outcome.2 = last + 1 ∧ timeout.toNat ≤ t.elapsed last
  resolved : ∀ status, outcome.1.1 = some (.ok status) →
    1 ≤ outcome.2 ∧ (t.seen c outcome.2).result = some status

theorem honest_loop (bound : ℕ) (h : 1 ≤ readings) :
    t.Honest c timeout (t.loop c timeout readings bound) := by
  induction bound generalizing readings with
  | zero => exact ⟨rfl, nofun, nofun⟩
  | succ bound ih =>
    cases hresult : (t.seen c readings).result with
    | some status =>
      rw [loop_of_result t c timeout hresult]
      refine ⟨rfl, nofun, ?_⟩
      rintro _ ⟨⟩
      exact ⟨h, hresult⟩
    | none =>
      rw [loop_of_busy t c timeout hresult]
      split
      · next hpassed =>
        exact ⟨rfl, fun _ => ⟨readings, h, rfl, t.le_elapsed_of_passed hpassed⟩, nofun⟩
      · exact ih (Nat.le_succ_of_le h)

/-- No poll before this one has found a result, and the timeout was not over at any reading before
it. -/
def WaitsTill (k : ℕ) : Prop :=
  ∀ i, 1 ≤ i → i < k → (t.seen c i).result = none ∧ t.elapsed i < timeout.toNat

/-- The wait goes on as long as no poll finds a result and the timeout is not over. -/
theorem loop_eq_of_waiting {more : ℕ}
    (h : ∀ i, readings ≤ i → i < readings + more →
      (t.seen c i).result = none ∧ t.elapsed i < timeout.toNat) (bound : ℕ) :
    t.loop c timeout readings (more + bound) = t.loop c timeout (readings + more) bound := by
  induction more generalizing readings with
  | zero => rw [Nat.zero_add, Nat.add_zero]
  | succ more ih =>
    obtain ⟨hresult, helapsed⟩ := h readings (Nat.le_refl _) (by omega)
    have hnot : ¬ timeout ≤ t.reading readings - t.reading 0 :=
      fun hpassed => Nat.not_le.2 helapsed (t.le_elapsed_of_passed hpassed)
    rw [Nat.succ_add, loop_of_busy t c timeout hresult, if_neg hnot,
      ih fun i hi hlt => h i (by omega) (by omega)]
    congr 1
    omega

variable {t c timeout}

/-- The first poll that finds a result ends the wait. -/
theorem wait_of_result {k bound : ℕ} {status : Status} (hk : 1 ≤ k) (hbound : k ≤ bound)
    (hwaits : t.WaitsTill c timeout k)
    (hresult : (t.seen c k).result = some status) :
    t.wait c timeout bound = ((some (.ok status), t.seen c k), k) := by
  obtain ⟨more, rfl⟩ := Nat.exists_eq_add_of_le hk
  obtain ⟨rest, rfl⟩ := Nat.exists_eq_add_of_le hbound
  have hpolls : 1 + more + rest = more + (rest + 1) := by omega
  rw [wait_eq_loop, hpolls, loop_eq_of_waiting t c timeout hwaits,
    loop_of_result t c timeout hresult]

/-- The first reading at which the timeout is over ends the wait. -/
theorem wait_of_over {k bound : ℕ} (hk : 1 ≤ k) (hbound : k ≤ bound)
    (hwaits : t.WaitsTill c timeout k)
    (hgap : t.GapsWithin (2 ^ 32 - timeout.toNat) k)
    (hresult : (t.seen c k).result = none) (hover : timeout.toNat ≤ t.elapsed k) :
    t.wait c timeout bound = ((some (.error .timedOut), t.seen c (k + 1)), k + 1) := by
  have hpassed : timeout ≤ t.reading k - t.reading 0 :=
    t.passed_of_first (fun i hi hlt => (hwaits i hi hlt).2) hgap hover
  obtain ⟨more, rfl⟩ := Nat.exists_eq_add_of_le hk
  obtain ⟨rest, rfl⟩ := Nat.exists_eq_add_of_le hbound
  have hpolls : 1 + more + rest = more + (rest + 1) := by omega
  rw [wait_eq_loop, hpolls, loop_eq_of_waiting t c timeout hwaits,
    loop_of_busy t c timeout hresult, if_pos hpassed]

/-- The wait is over once the timeout is. -/
theorem wait_ends {k bound : ℕ} (hk : 1 ≤ k) (hbound : k ≤ bound)
    (hgap : t.GapsWithin (2 ^ 32 - timeout.toNat) k) (hover : timeout.toNat ≤ t.elapsed k) :
    ∃ result c' readings, t.wait c timeout bound = ((some result, c'), readings) ∧
      readings ≤ k + 1 := by
  -- the first poll or reading that would end it comes no later
  have hsome : ∃ i, 1 ≤ i ∧ ((t.seen c i).result ≠ none ∨ timeout.toNat ≤ t.elapsed i) :=
    ⟨k, hk, .inr hover⟩
  have hle : Nat.find hsome ≤ k := Nat.find_min' hsome ⟨hk, .inr hover⟩
  obtain ⟨hfirst, hends⟩ := Nat.find_spec hsome
  have hwaits : t.WaitsTill c timeout (Nat.find hsome) := by
    intro i hi hlt
    have hnot := Nat.find_min hsome hlt
    simpa [hi] using hnot
  have hgaps : t.GapsWithin (2 ^ 32 - timeout.toNat) (Nat.find hsome) :=
    fun i hi => hgap i (Nat.lt_of_lt_of_le hi hle)
  cases hresult : (t.seen c (Nat.find hsome)).result with
  | some status =>
    exact ⟨_, _, _, wait_of_result hfirst (by omega) hwaits hresult, by omega⟩
  | none =>
    have hfound : timeout.toNat ≤ t.elapsed (Nat.find hsome) := by simpa [hresult] using hends
    exact ⟨_, _, _, wait_of_over hfirst (by omega) hwaits hgaps hresult hfound, by omega⟩

end Loop

end Schedule

/-- **The wait is exact.**  Let a clock show the low 32 bits of a time that never runs backwards,
and let others do anything to the completion at any time.  A wait does nothing to the completion
itself.  It gives up only after a reading at which its timeout is over in truth, and the result it
ends with is one that it polled.  It ends at the first poll that finds a result, if the timeout was
not over before.  Now let the time between two readings never be longer than what the timeout lacks
to a whole round of the clock.  Then the wait ends once its timeout is over, and if no poll has
found a result, it gives up at the first reading at which it is over, wherever the clock comes
round. -/
theorem deadline_exact (t : Schedule) (c : Completion) (timeout : UInt32) (bound : ℕ) :
    (∀ result c' readings, t.wait c timeout bound = ((result, c'), readings) →
      c' = t.seen c readings ∧
      (result = some (.error .timedOut) →
        ∃ last, 1 ≤ last ∧ readings = last + 1 ∧ timeout.toNat ≤ t.elapsed last) ∧
      ∀ status, result = some (.ok status) →
        1 ≤ readings ∧ (t.seen c readings).result = some status) ∧
    ∀ k, 1 ≤ k → k ≤ bound →
      (t.WaitsTill c timeout k → ∀ status, (t.seen c k).result = some status →
        t.wait c timeout bound = ((some (.ok status), t.seen c k), k)) ∧
      (t.GapsWithin (2 ^ 32 - timeout.toNat) k → timeout.toNat ≤ t.elapsed k →
        (∃ result c' readings, t.wait c timeout bound = ((some result, c'), readings) ∧
          readings ≤ k + 1) ∧
        (t.WaitsTill c timeout k → (t.seen c k).result = none →
          t.wait c timeout bound =
            ((some (.error .timedOut), t.seen c (k + 1)), k + 1))) := by
  constructor
  · intro result c' readings h
    have hhonest := t.honest_loop c timeout bound (Nat.le_refl 1)
    rw [← t.wait_eq_loop, h] at hhonest
    exact ⟨hhonest.untouched, hhonest.late, hhonest.resolved⟩
  · intro k hk hbound
    constructor
    · intro hwaits status hresult
      exact t.wait_of_result hk hbound hwaits hresult
    · intro hgap hover
      refine ⟨t.wait_ends hk hbound hgap hover, ?_⟩
      intro hwaits hresult
      exact t.wait_of_over hk hbound hwaits hgap hresult hover

/-- A clock that is read every 5 milliseconds and comes round after the second reading, while nobody
publishes anything. -/
def roundingClock : Schedule where
  time i := 4294967290 + 5 * i
  monotone i j h := by
    show 4294967290 + 5 * i ≤ 4294967290 + 5 * j
    omega
  calls _ := []

/-- A wait for 8 milliseconds gives up after 10 of them. -/
theorem deadline_exact_roundingClock :
    roundingClock.wait (arm {}) 8 2 =
      ((some (.error .timedOut), roundingClock.seen (arm {}) 3), 3) := by
  have hwaits : roundingClock.WaitsTill (arm {}) 8 2 := by
    intro i hi hlt
    obtain rfl : i = 1 := by omega
    exact ⟨rfl, by decide⟩
  have hgap : roundingClock.GapsWithin (2 ^ 32 - UInt32.toNat 8) 2 := by
    intro i hi
    show 4294967290 + 5 * (i + 1) ≤ 4294967290 + 5 * i + 4294967288
    omega
  exact (((deadline_exact roundingClock (arm {}) 8 2).2 2 (by decide) (by decide)).2 hgap
    (by decide)).2 hwaits rfl

end ElementHost.Completion
