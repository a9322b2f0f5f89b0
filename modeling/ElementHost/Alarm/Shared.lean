import ElementHost.Alarm.Basic

/-!
# An alarm behind a lock

An alarm that is used from several places, its own jobs among them, lies in a cell.  Whoever uses
it takes it out of the cell and puts it back afterwards; who finds the cell empty has run into a
use that is still going on, which is an error.  An expiry takes the alarm twice, before and after
its job, and not while the job runs, so that the job may use the alarm in turn.

* `SharedAlarmT κ η m`, computations over such a cell;
* `SharedAlarm.use`, one use under the lock;
* `SharedAlarm.fire`, an expiry.
-/

namespace ElementHost

/-- What can go wrong with a shared alarm. -/
inductive SharedAlarm.Error
  /-- The alarm was wanted while it was in use. -/
  | inUse
  deriving DecidableEq, Repr

/-- Computations over a shared alarm; the cell is empty while the alarm is in use. -/
abbrev SharedAlarmT (κ η : Type) (m : Type → Type) :=
  StateT (Option (Alarm κ η)) (ExceptT SharedAlarm.Error m)

namespace SharedAlarm

variable {κ η α : Type} {m : Type → Type} [Monad m]

/-- Uses the alarm under the lock.  What `f` does besides runs while the alarm is taken. -/
def use (f : StateT (Alarm κ η) (SharedAlarmT κ η m) α) : SharedAlarmT κ η m α := do
  match ← get with
  | none => throw .inUse
  | some alarm =>
    set (none : Option (Alarm κ η))
    let (a, alarm) ← f.run alarm
    set (some alarm)
    return a

/-- The expiry of the timer: the registered job, if there is one, runs with the lock released. -/
def fire (run : κ → SharedAlarmT κ η m Unit) : SharedAlarmT κ η m Unit := do
  if let some job ← use Alarm.expire then
    run job
  use Alarm.settle

end SharedAlarm

end ElementHost
