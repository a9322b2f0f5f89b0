/-!
# Timer facilities

Where an alarm gets its timer from: a facility that creates a one-shot timer, starts it anew for a
number of ticks, stops it and deletes it.  It knows nothing about what happens on expiry.  Every
call may fail.

* `Timers m η φ`, a facility whose calls run in `m`, with handles `η` and reasons of failure `φ`.
-/

namespace ElementHost

/-- A facility of one-shot timers. -/
structure Timers (m : Type → Type) (η φ : Type) where
  /-- Ticks per second. -/
  rate : m UInt32
  /-- Creates a timer with a name and a first period in ticks. -/
  create : String → UInt32 → m (Except φ η)
  /-- Starts a timer, so that it expires after so many ticks from now. -/
  start : η → UInt32 → m (Except φ Unit)
  /-- Stops a timer and keeps it. -/
  stop : η → m (Except φ Unit)
  /-- Deletes a timer; its handle is of no use afterwards. -/
  delete : η → m (Except φ Unit)

/-- A facility of a smaller monad, used in a larger one. -/
def Timers.lift {m n : Type → Type} {η φ : Type} [MonadLiftT m n] (timers : Timers m η φ) :
    Timers n η φ where
  rate := liftM timers.rate
  create name ticks := liftM (timers.create name ticks)
  start handle ticks := liftM (timers.start handle ticks)
  stop handle := liftM (timers.stop handle)
  delete handle := liftM (timers.delete handle)

end ElementHost
