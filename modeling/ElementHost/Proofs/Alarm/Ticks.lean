import ElementHost.Alarm.Ticks
import ElementHost.Countdown.Service
import Mathlib.Algebra.Group.Nat.Defs

/-!
# The value of a delay in ticks

* `toNat_ticksOfMicros`, the number of ticks, without any loss on the way;
* `toNat_ticksOfMicros_tickRate`, the same at a tick a microsecond;
* `ticksOfMicros_le_ticksOfMicros`, a longer delay or a faster timer never takes fewer ticks;
* `Saturates`, `Converts` and `converts_ticksOfMicros`, how the ticks relate to the delay.
-/

namespace ElementHost.Alarm

theorem toNat_min (a b : UInt64) : (min a b).toNat = min a.toNat b.toNat := by
  show (if a ≤ b then a else b).toNat = _
  split
  · next h => exact (Nat.min_eq_left h).symm
  · next h => exact (Nat.min_eq_right (Nat.le_of_not_le h)).symm

theorem toNat_max (a b : UInt64) : (max a b).toNat = max a.toNat b.toNat := by
  show (if a ≤ b then b else a).toNat = _
  split
  · next h => exact (Nat.max_eq_right h).symm
  · next h => exact (Nat.max_eq_left (Nat.le_of_not_le h)).symm

/-- The product of two 32-bit numbers fits into 64 bits. -/
theorem toNat_mul_toUInt64 (micros rate : UInt32) :
    (micros.toUInt64 * rate.toUInt64).toNat = micros.toNat * rate.toNat := by
  rw [UInt64.toNat_mul, UInt32.toNat_toUInt64, UInt32.toNat_toUInt64]
  have := Nat.mul_le_mul (Nat.le_of_lt_succ micros.toNat_lt) (Nat.le_of_lt_succ rate.toNat_lt)
  exact Nat.mod_eq_of_lt (by omega)

/-- Only the bounds cut the quotient. -/
theorem toNat_ticksOfMicros (micros rate : UInt32) :
    (ticksOfMicros micros rate).toNat =
      max 1 (min (micros.toNat * rate.toNat / 1000000) 0xFFFFFFFF) := by
  rw [ticksOfMicros, UInt64.toNat_toUInt32, toNat_max, toNat_min, UInt64.toNat_div,
    toNat_mul_toUInt64]
  show max 1 (min (micros.toNat * rate.toNat / 1000000) 4294967295) % 4294967296 = _
  omega

/-- A microsecond is a tick, and no delay is shorter than a tick. -/
theorem toNat_ticksOfMicros_tickRate (micros : UInt32) :
    (ticksOfMicros micros Countdown.tickRate).toNat = max 1 micros.toNat := by
  have := micros.toNat_lt
  rw [toNat_ticksOfMicros, show Countdown.tickRate.toNat = 1000000 from rfl,
    Nat.mul_div_cancel _ (by decide)]
  omega

/-- A longer delay on a timer that is no slower takes no fewer ticks. -/
theorem ticksOfMicros_le_ticksOfMicros {micros micros' rate rate' : UInt32}
    (hmicros : micros ≤ micros') (hrate : rate ≤ rate') :
    ticksOfMicros micros rate ≤ ticksOfMicros micros' rate' := by
  have hproduct : micros.toNat * rate.toNat ≤ micros'.toNat * rate'.toNat :=
    Nat.mul_le_mul hmicros hrate
  have hwhole : micros.toNat * rate.toNat / 1000000 ≤ micros'.toNat * rate'.toNat / 1000000 :=
    Nat.div_le_div_right hproduct
  rw [UInt32.le_iff_toNat_le, toNat_ticksOfMicros, toNat_ticksOfMicros]
  omega

/-- There are more whole ticks in the delay than 32 bits hold. -/
def Saturates (micros rate : UInt32) : Prop :=
  2 ^ 32 - 1 < micros.toNat * rate.toNat / 1000000

/-- What a number of ticks has to do with a delay and a rate. -/
structure Converts (micros rate ticks : UInt32) : Prop where
  /-- No bit of the product is lost. -/
  product : (micros.toUInt64 * rate.toUInt64).toNat = micros.toNat * rate.toNat
  bounds : 1 ≤ ticks.toNat ∧ ticks.toNat ≤ 2 ^ 32 - 1
  /-- The ticks are the whole ticks in the delay, if these are within the bounds. -/
  whole : 1 ≤ micros.toNat * rate.toNat / 1000000 →
    micros.toNat * rate.toNat / 1000000 ≤ 2 ^ 32 - 1 →
      ticks.toNat = micros.toNat * rate.toNat / 1000000
  /-- They fall short of the delay by less than one tick, unless they are cut at the upper end. -/
  lt_succ_iff : micros.toNat * rate.toNat < (ticks.toNat + 1) * 1000000 ↔ ¬ Saturates micros rate
  /-- They are cut there only if the timer ticks more than once in a microsecond. -/
  saturated : Saturates micros rate → ticks.toNat = 2 ^ 32 - 1 ∧ 1000000 < rate.toNat

theorem converts_ticksOfMicros (micros rate : UInt32) :
    Converts micros rate (ticksOfMicros micros rate) := by
  have hticks := toNat_ticksOfMicros micros rate
  constructor
  case product => exact toNat_mul_toUInt64 micros rate
  case bounds => omega
  case whole =>
    intro hpos hle
    omega
  case lt_succ_iff =>
    unfold Saturates
    omega
  case saturated =>
    unfold Saturates
    intro hsaturated
    have hmicros : micros.toNat ≤ 2 ^ 32 - 1 := Nat.le_of_lt_succ micros.toNat_lt
    rcases Nat.lt_or_ge 1000000 rate.toNat with hfast | hslow
    · exact ⟨by omega, hfast⟩
    · have hproduct : micros.toNat * rate.toNat ≤ (2 ^ 32 - 1) * 1000000 :=
        Nat.mul_le_mul hmicros hslow
      omega

end ElementHost.Alarm
