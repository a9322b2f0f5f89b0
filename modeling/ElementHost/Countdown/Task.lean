import ElementHost.Clock.Uptime
import ElementHost.Countdown.Service

/-!
# The task that serves the timer

The task waits for orders.  Having taken a start it waits for the deadline or for the next order,
whichever comes first; if both are there, the deadline wins and the order stays for the next wait.
Time is the count of microseconds since the board came up, without a bound.

* `Countdown.Task`, what the task waits for;
* `Countdown.Task.poll`, how far it gets in one poll;
* `Countdown.uptime`, the uptime in milliseconds derived from the same clock.

A deadline is never met in the poll that took its order, not even when it lies in the past: the
task looks at a deadline for the first time in the next poll.
-/

namespace ElementHost.Countdown

/-- What the task waits for. -/
inductive Task
  /-- An order. -/
  | idle
  /-- A deadline, in microseconds, or an order. -/
  | running (deadline : Nat)
  deriving DecidableEq, Repr, Inhabited

namespace Task

/-- Whether a deadline has come. -/
def isDue (now : Nat) : Task → Bool
  | idle => false
  | running deadline => deadline ≤ now

/-- What the task waits for once it has taken an order. -/
def obey (now : Nat) : Order → Task
  | .start ticks => running (now + ticks.toNat)
  | .stop => idle

variable {m : Type → Type} [Monad m] [MonadStateOf Mailbox m]

/-- Takes an order from the mailbox and obeys it; without one the task goes on as it is. -/
def obeyNext (now : Nat) (task : Task) : m Task := do
  match ← modifyGetThe Mailbox Mailbox.take with
  | none => return task
  | some order => return obey now order

/-- One poll of the task at time `now`: an expiry if the deadline has come, then the next order. -/
def poll (now : Nat) (onExpiry : m Unit) (task : Task) : m Task := do
  if task.isDue now then
    onExpiry
    obeyNext now idle
  else
    obeyNext now task

end Task

/-- The uptime in milliseconds at `micros` microseconds, cut to 32 bits. -/
def uptimeMillis (micros : Nat) : UInt32 := (micros / 1000).toUInt32

/-- The uptime counter of a board whose clock reads microseconds. -/
def uptime {m : Type → Type} [Monad m] (clock : m Nat) : Uptime m := ⟨return uptimeMillis (← clock)⟩

end ElementHost.Countdown
