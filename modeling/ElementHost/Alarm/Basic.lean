import ElementHost.Alarm.Ticks
import ElementHost.Alarm.Timers

/-!
# The one-shot alarm

An alarm holds one job and one timer.  The timer is created with the first registration and started
anew by every later one; only `Alarm.destroy` deletes it.

    idle -- register --> armed -- expire --> fired -- settle --> idle
                         |   ^                 |
                         +---+                 +-- register --> armed

* `Alarm κ η`, the state: a job is a `κ`, a timer's handle an `η`;
* `Alarm.register`, `Alarm.start`, `Alarm.create`, the ways to arm it;
* `Alarm.expire`, `Alarm.settle` and, with the job run in between, `Alarm.trigger`;
* `Alarm.stop`, which forgets that a start is in flight, and `Alarm.destroy`.

A job is data to the alarm: what running it means is a parameter of `Alarm.trigger`.  The job may
use the alarm it came from.
-/

namespace ElementHost

namespace Alarm

/-- The tunables of an alarm. -/
structure Config where
  /-- The delay of `Alarm.start`, in microseconds. -/
  delayMicros : UInt32 := 1000
  /-- The name its timer is created with. -/
  timerName : String := "trustlink_event"
  deriving DecidableEq, Repr, Inhabited

/-- Where an alarm is in its life. -/
inductive Phase
  /-- Nothing is scheduled. -/
  | idle
  /-- The timer runs and a job waits for it. -/
  | armed
  /-- The timer has expired and the job is being run. -/
  | fired
  deriving DecidableEq, Repr, Inhabited

/-- What a registration found. -/
inductive Arming
  /-- No job was waiting. -/
  | fresh
  /-- A job that had not been run yet was replaced. -/
  | replaced
  deriving DecidableEq, Repr

/-- Why an alarm could not be armed. -/
inductive Error
  /-- The timer could not be created or started. -/
  | timer
  deriving DecidableEq, Repr

end Alarm

/-- The state of an alarm. -/
structure Alarm (κ η : Type) where
  config : Alarm.Config := {}
  /-- The handle of its timer, if there is one. -/
  timer : Option η := none
  /-- The job registered last.  It stays after it has been run. -/
  job : Option κ := none
  /-- Whether it was started without being stopped since. -/
  triggered : Bool := false
  phase : Alarm.Phase := .idle
  /-- The number of timers created so far. -/
  created : UInt32 := 0
  deriving Inhabited

namespace Alarm

variable {κ η φ : Type} {m : Type → Type} [Monad m]

/-- The handle of the timer, which is created if there is none yet. -/
def obtainTimer (timers : Timers m η φ) (ticks : UInt32) :
    StateT (Alarm κ η) m (Except Error η) := do
  let alarm ← get
  match alarm.timer with
  | some handle => return .ok handle
  | none =>
    match ← timers.create alarm.config.timerName ticks with
    | .error _ => return .error .timer
    | .ok handle =>
      modify fun alarm => { alarm with timer := some handle, created := alarm.created + 1 }
      return .ok handle

/-- Registers `job` to be run once after `delayMicros`.  If that fails, the job registered before
stays in place. -/
def register (timers : Timers m η φ) (job : κ) (delayMicros : UInt32) :
    StateT (Alarm κ η) m (Except Error Arming) := do
  let arming := if (← get).phase = .armed then .replaced else .fresh
  let ticks := ticksOfMicros delayMicros (← timers.rate)
  match ← obtainTimer timers ticks with
  | .error e => return .error e
  | .ok handle =>
    match ← timers.start handle ticks with
    | .error _ => return .error .timer
    | .ok () =>
      modify fun alarm => { alarm with job := some job, phase := .armed }
      return .ok arming

/-- Registers `job` for the configured delay, unless a start is in flight already: then nothing
happens and the answer is `none`. -/
def start (timers : Timers m η φ) (job : κ) :
    StateT (Alarm κ η) m (Except Error (Option Arming)) := do
  let alarm ← get
  if alarm.triggered then
    return .ok none
  else
    match ← register timers job alarm.config.delayMicros with
    | .error e => return .error e
    | .ok arming =>
      modify fun alarm => { alarm with triggered := true }
      return .ok (some arming)

/-- Starts the alarm if a job is given. -/
def create (timers : Timers m η φ) (job : Option κ) :
    StateT (Alarm κ η) m (Except Error Unit) := do
  match job with
  | none => return .ok ()
  | some job => return (← start timers job).map fun _ => ()

/-- Forgets that a start is in flight.  The timer runs on and the job stays. -/
def stop : StateT (Alarm κ η) m Unit :=
  modify fun alarm => { alarm with triggered := false }

/-- Marks the alarm fired and hands the registered job out, if there is one. -/
def expire : StateT (Alarm κ η) m (Option κ) :=
  modifyGet fun alarm =>
    (alarm.job, { alarm with phase := if alarm.job.isSome then .fired else .idle })

/-- Ends a dispatch.  An alarm that was armed in the meantime stays armed. -/
def settle : StateT (Alarm κ η) m Unit :=
  modify fun alarm => { alarm with phase := if alarm.phase = .fired then .idle else alarm.phase }

/-- Runs the registered job, if there is one, between `expire` and `settle`. -/
def trigger (run : κ → StateT (Alarm κ η) m Unit) : StateT (Alarm κ η) m Unit := do
  if let some job ← expire then
    run job
  settle

/-- Stops and deletes the timer; both are tried.  If either fails, nothing is changed. -/
def destroy (timers : Timers m η φ) : StateT (Alarm κ η) m Unit := do
  match (← get).timer with
  | none => return ()
  | some handle =>
    let stopped ← timers.stop handle
    let deleted ← timers.delete handle
    if stopped.isOk && deleted.isOk then
      modify fun alarm => { alarm with timer := none, phase := .idle }

end Alarm

end ElementHost
