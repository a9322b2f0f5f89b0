import ElementHost.Clock.Uptime

/-!
# Delays

A delay waits for an amount of time given in one of three units.  A board without a hardware delay
waits on its uptime counter: the request is rounded up to whole milliseconds and, because the first
millisecond may be a partial one, the wait ends only once *more* than that many lie between the
first reading and the last.

* `Delay m`, anything that can wait, with `Delay.nanos`, `Delay.micros`, `Delay.millis`;
* `TimeUnit.wholeMillis`, the rounding;
* `Uptime.waitBeyond` and `Uptime.delay`, the wait on the uptime counter.

Nothing forces a counter to advance, so the wait takes a bound on its number of readings.  It ends
in `none` when the bound is used up and the time is still not over.
-/

namespace ElementHost

/-- The unit of a delay. -/
inductive TimeUnit
  | nanos
  | micros
  | millis
  deriving DecidableEq, Repr

/-- How many of a unit make up a millisecond. -/
def TimeUnit.perMilli : TimeUnit → UInt32
  | .nanos => 1000000
  | .micros => 1000
  | .millis => 1

/-- The least number of whole milliseconds that covers `amount` of a unit. -/
def TimeUnit.wholeMillis (unit : TimeUnit) (amount : UInt32) : UInt32 :=
  let whole := amount / unit.perMilli
  if amount % unit.perMilli = 0 then whole else whole + 1

/-- Something that can wait. -/
structure Delay (m : Type → Type) where
  wait : TimeUnit → UInt32 → m Unit

namespace Delay

variable {m n : Type → Type}

/-- Waits for nanoseconds. -/
def nanos (delay : Delay m) (amount : UInt32) : m Unit := delay.wait .nanos amount

/-- Waits for microseconds. -/
def micros (delay : Delay m) (amount : UInt32) : m Unit := delay.wait .micros amount

/-- Waits for milliseconds. -/
def millis (delay : Delay m) (amount : UInt32) : m Unit := delay.wait .millis amount

/-- A delay of a smaller monad, used in a larger one. -/
def lift [MonadLiftT m n] (delay : Delay m) : Delay n where
  wait unit amount := liftM (delay.wait unit amount)

end Delay

namespace Uptime

variable {m : Type → Type} [Monad m]

/-- Reads the counter until more than `ms` milliseconds have passed since it read `start`. -/
@[specialize] def waitBeyond (uptime : Uptime m) (start ms : UInt32) : Nat → OptionT m Unit
  | 0 => failure
  | bound + 1 => do
    let elapsed ← uptime.since start
    if elapsed ≤ ms then waitBeyond uptime start ms bound

/-- Waits for more than `ms` milliseconds from a first reading on; for none at all if `ms` is 0. -/
def waitMillis (uptime : Uptime m) (bound : Nat) (ms : UInt32) : OptionT m Unit := do
  if ms ≠ 0 then
    let start ← uptime.millis
    uptime.waitBeyond start ms bound

/-- The delay that waits on an uptime counter, reading it at most `bound` times after the first. -/
def delay (uptime : Uptime m) (bound : Nat) : Delay (OptionT m) where
  wait unit amount := uptime.waitMillis bound (unit.wholeMillis amount)

end Uptime

end ElementHost
