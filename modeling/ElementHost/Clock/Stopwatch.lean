import ElementHost.Clock.Uptime

/-!
# Stopwatch

A stopwatch remembers the reading at which it was started.  A lap takes the time so far and starts
over at the very reading it was taken with, so that no time falls between two laps.

* `Stopwatch`, `Stopwatch.begin`, `Stopwatch.elapsed`;
* `Stopwatch.lapAt`, `Stopwatch.lap`.
-/

namespace ElementHost

/-- A running stopwatch. -/
structure Stopwatch where
  /-- The reading it was started at, in milliseconds. -/
  startedAt : UInt32
  deriving DecidableEq, Repr

namespace Stopwatch

/-- The lap that ends at the reading `now`, and the stopwatch started over there. -/
def lapAt (watch : Stopwatch) (now : UInt32) : UInt32 × Stopwatch :=
  (now - watch.startedAt, ⟨now⟩)

variable {m : Type → Type} [Monad m]

/-- A stopwatch started now. -/
def begin (uptime : Uptime m) : m Stopwatch := return ⟨← uptime.millis⟩

/-- Milliseconds since the stopwatch was started. -/
def elapsed (watch : Stopwatch) (uptime : Uptime m) : m UInt32 := uptime.since watch.startedAt

/-- Takes a lap: the time so far, and the stopwatch started over. -/
def lap (watch : Stopwatch) (uptime : Uptime m) : m (UInt32 × Stopwatch) :=
  return watch.lapAt (← uptime.millis)

end Stopwatch

end ElementHost
