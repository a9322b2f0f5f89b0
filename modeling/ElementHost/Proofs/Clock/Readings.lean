import Mathlib.Algebra.Group.Nat.Defs
import Mathlib.Order.Monotone.Basic

/-!
# What readings say about the time

A counter shows the low 32 bits of a time in milliseconds that never runs backwards.  Between two of
its readings, the difference modulo `2 ^ 32` is all there is to tell how much time has passed.

* `Timeline`, the true time at each reading, and `Timeline.reading`;
* `Timeline.elapsed`, the true time since the first reading, and `Timeline.GapsWithin`;
* `Timeline.toNat_reading_sub`, what a difference of two readings is, and `Timeline.passed_iff`,
  what it tells about a duration;
* `Timeline.le_elapsed_of_passed`, a duration that is over by the readings is over in truth;
* `Timeline.passed_of_first`, and the other way round, if the counter is read often enough.
-/

namespace ElementHost

/-- The true time at each reading of a counter, in milliseconds. -/
structure Timeline where
  time : ℕ → ℕ
  monotone : Monotone time

namespace Timeline

variable (t : Timeline) {i j : ℕ}

/-- What the counter shows. -/
def reading (i : ℕ) : UInt32 := (t.time i).toUInt32

/-- The true time between the first reading and another one. -/
def elapsed (i : ℕ) : ℕ := t.time i - t.time 0

/-- Up to a reading, no more than `gap` milliseconds pass from one reading to the next. -/
def GapsWithin (gap last : ℕ) : Prop := ∀ i, i < last → t.time (i + 1) ≤ t.time i + gap

theorem elapsed_zero : t.elapsed 0 = 0 := Nat.sub_self _

/-- The difference of two readings is the time between them modulo `2 ^ 32`. -/
theorem toNat_reading_sub (h : i ≤ j) :
    (t.reading j - t.reading i).toNat = (t.time j - t.time i) % 2 ^ 32 := by
  have hle : t.time i ≤ t.time j := t.monotone h
  have hsub : (t.reading j - t.reading i).toNat =
      (2 ^ 32 - t.time i % 2 ^ 32 + t.time j % 2 ^ 32) % 2 ^ 32 := by
    rw [UInt32.toNat_sub]
    rfl
  rw [hsub]
  omega

variable {duration : UInt32}

/-- A duration has passed between two readings exactly if it has in truth, unless the counter has
come round. -/
theorem passed_iff (h : i ≤ j) (hround : t.time j - t.time i < 2 ^ 32) :
    duration ≤ t.reading j - t.reading i ↔ duration.toNat ≤ t.time j - t.time i := by
  rw [UInt32.le_iff_toNat_le, t.toNat_reading_sub h, Nat.mod_eq_of_lt hround]

/-- A duration that has passed by the readings has passed in truth. -/
theorem le_elapsed_of_passed (h : duration ≤ t.reading i - t.reading 0) :
    duration.toNat ≤ t.elapsed i := by
  have hle : duration.toNat ≤ (t.reading i - t.reading 0).toNat := h
  rw [t.toNat_reading_sub (Nat.zero_le i)] at hle
  exact Nat.le_trans hle (Nat.mod_le _ _)

/-- A duration that has passed in truth has passed by the readings as well, unless the counter has
come round. -/
theorem passed_of_le_elapsed (h : duration.toNat ≤ t.elapsed i) (hround : t.elapsed i < 2 ^ 32) :
    duration ≤ t.reading i - t.reading 0 := (t.passed_iff (Nat.zero_le i) hround).2 h

/-- The counter has not come round at a reading, if a duration was not over at any reading before,
and no more than it lacks to a whole round has passed since. -/
theorem elapsed_lt_of_first {last duration : ℕ} (hpos : 0 < duration) (hle : duration ≤ 2 ^ 32)
    (hearlier : ∀ i, 1 ≤ i → i < last → t.elapsed i < duration)
    (hgap : t.GapsWithin (2 ^ 32 - duration) last) : t.elapsed last < 2 ^ 32 := by
  cases last with
  | zero =>
    rw [t.elapsed_zero]
    decide
  | succ i =>
    have hbefore : t.elapsed i < duration := by
      cases i with
      | zero => rwa [t.elapsed_zero]
      | succ i => exact hearlier (i + 1) (by omega) (Nat.lt_succ_self _)
    have hnext := hgap i (Nat.lt_succ_self i)
    have hstart : t.time 0 ≤ t.time i := t.monotone (Nat.zero_le i)
    unfold elapsed at hbefore ⊢
    omega

/-- A duration that is over for the first time is over by the readings as well. -/
theorem passed_of_first {last : ℕ}
    (hearlier : ∀ i, 1 ≤ i → i < last → t.elapsed i < duration.toNat)
    (hgap : t.GapsWithin (2 ^ 32 - duration.toNat) last) (hover : duration.toNat ≤ t.elapsed last) :
    duration ≤ t.reading last - t.reading 0 := by
  rcases Nat.eq_zero_or_pos duration.toNat with hzero | hpos
  · show duration.toNat ≤ _
    rw [hzero]
    exact Nat.zero_le _
  · have hle : duration.toNat ≤ 2 ^ 32 := Nat.le_of_lt duration.toNat_lt
    exact t.passed_of_le_elapsed hover (t.elapsed_lt_of_first hpos hle hearlier hgap)

end Timeline

end ElementHost
