import ElementHost.Completion.Basic

/-!
# Waiting for a completion by polling it

The waits here poll the completion again and again and let time pass in between.  Neither of them
touches the operation: a caller that gives up leaves it in flight.

* `Completion.spin`, which waits for a result and nothing else;
* `Completion.waitUntil`, which gives up once a timeout has passed.

Nothing forces a result to come, so a wait takes a bound on its number of polls.  It ends in `none`
when the bound is used up and the wait would still go on.
-/

namespace ElementHost.Completion

variable {m : Type → Type} [Monad m] [MonadStateOf Completion m]

/-- Polls until there is a result, with `relax` after every poll that finds none. -/
@[specialize] def spin (relax : m Unit) : Nat → OptionT m Status
  | 0 => failure
  | bound + 1 => do
    match (← getThe Completion).result with
    | some status => return status
    | none =>
      relax
      spin relax bound

/-- A wait has used up its time. -/
inductive TimedOut
  | timedOut
  deriving DecidableEq, Repr

/-- Polls until there is a result or `timeout` milliseconds have passed since the clock read
`start`.  The clock is read after every poll that finds no result. -/
@[specialize] def waitFrom (uptime : Uptime m) (start timeout : UInt32) :
    Nat → OptionT m (Except TimedOut Status)
  | 0 => failure
  | bound + 1 => do
    match (← getThe Completion).result with
    | some status => return .ok status
    | none =>
      if ← uptime.hasPassed start timeout then
        return .error .timedOut
      else
        waitFrom uptime start timeout bound

/-- Reads the clock once and waits from that reading on. -/
def waitUntil (uptime : Uptime m) (timeout : UInt32) (bound : Nat) :
    OptionT m (Except TimedOut Status) := do
  let start ← uptime.millis
  waitFrom uptime start timeout bound

end ElementHost.Completion
