/-!
# Delays in timer ticks

A timer counts ticks at a rate of its own.  A delay in microseconds becomes the number of whole
ticks in it, at least one and at most what 32 bits hold.
-/

namespace ElementHost.Alarm

/-- The timer ticks for a delay of `micros` at `rate` ticks a second. -/
def ticksOfMicros (micros rate : UInt32) : UInt32 :=
  let ticks := micros.toUInt64 * rate.toUInt64 / 1000000
  (max 1 (min ticks 0xFFFFFFFF)).toUInt32

/-- Less than a tick still counts as one, and a value too large is cut at 32 bits. -/
example : ticksOfMicros 50 1000 = 1 ∧ ticksOfMicros 2500 1000 = 2 ∧
    ticksOfMicros 1000 32768 = 32 ∧ ticksOfMicros 4294967295 4294967295 = 4294967295 := by
  decide

end ElementHost.Alarm
