/-!
# Uptime in milliseconds

A 32-bit counter of milliseconds since the board came up.  It wraps, so every difference is taken
modulo `2 ^ 32`, and a difference of two readings is right as long as less than `2 ^ 32`
milliseconds lie between them.

* `Uptime m`, a counter whose readings run in `m`;
* `Uptime.micros`, `Uptime.since`, `Uptime.hasPassed`, what is derived from one reading.

Microseconds are milliseconds times 1000, again modulo `2 ^ 32`; they carry no more precision.
-/

namespace ElementHost

/-- A millisecond uptime counter. -/
structure Uptime (m : Type → Type) where
  /-- One reading, in milliseconds. -/
  millis : m UInt32

namespace Uptime

variable {m n : Type → Type}

/-- A counter of a smaller monad, read in a larger one. -/
def lift [MonadLiftT m n] (uptime : Uptime m) : Uptime n := ⟨liftM uptime.millis⟩

variable [Monad m]

/-- One reading, in microseconds. -/
def micros (uptime : Uptime m) : m UInt32 := return (← uptime.millis) * 1000

/-- Milliseconds since the counter read `start`. -/
def since (uptime : Uptime m) (start : UInt32) : m UInt32 := return (← uptime.millis) - start

/-- Whether `duration` milliseconds have passed since the counter read `start`. -/
def hasPassed (uptime : Uptime m) (start duration : UInt32) : m Bool :=
  return duration ≤ (← uptime.since start)

end Uptime

end ElementHost
