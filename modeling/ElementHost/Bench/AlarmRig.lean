import ElementHost.Bench.Peripherals

/-!
# Alarms on the bench

An alarm is used through a rig, which says how it is reached: as a value of its own, or shared
behind its lock.  Its callbacks may use the alarm in turn.  Each callback has a program for each
argument, and callbacks may nest five deep; one that is nested deeper does nothing.

* `AlarmRig`, with `AlarmRig.direct` and `AlarmRig.shared`;
* `AlarmRig.perform`, one step;
* `AlarmRig.runJob`, a callback with its program;
* `ExecutorM`, the computations with an alarm on the executor's timer, `Bench.pollTask` and the
  steps of the second facility.
-/

namespace ElementHost

/-- How an alarm is reached in the monad `n`. -/
structure AlarmRig (n : Type → Type) (η φ : Type) where
  timers : Timers n η φ
  /-- One use of the alarm. -/
  use : {α : Type} → StateT (Alarm Job η) n α → n α
  /-- An expiry, given what running a job means. -/
  dispatch : (Job → n Unit) → n Unit

namespace AlarmRig

section Rigs

variable {η φ : Type} {m : Type → Type} [Monad m]

/-- An alarm that is a value of its own. -/
def direct (timers : Timers m η φ) : AlarmRig (StateT (Alarm Job η) m) η φ where
  timers := timers.lift
  use f := do
    let (a, alarm) ← f.run (← get)
    set alarm
    return a
  dispatch := Alarm.trigger

/-- An alarm that is shared behind its lock. -/
def shared (timers : Timers m η φ) : AlarmRig (SharedAlarmT Job η m) η φ where
  timers := timers.lift
  use := SharedAlarm.use
  dispatch := SharedAlarm.fire

end Rigs

variable {η φ : Type} {n : Type → Type} [Monad n] [MonadLiftT BenchM n]

/-- Makes the next calls of a kind fail. -/
def failNext (call : TimerCall) (times : Nat) : BenchM Unit :=
  modify fun bench => { bench with timers := { bench.timers with
    failures := fun other => if other = call then times else bench.timers.failures other } }

/-- Changes the rate of the timer facility. -/
def setRate (hertz : UInt32) : BenchM Unit :=
  modify fun bench => { bench with timers := { bench.timers with rate := hertz } }

/-- Keeps what an expiry handed out. -/
def keep (job : Option Job) : BenchM Unit := modify fun bench => { bench with kept := job }

/-- Performs a step, given what running a job means. -/
def perform (rig : AlarmRig n η φ) (run : Job → n Unit) : AlarmStep → n AlarmReply
  | .create job => do
    match ← rig.use (Alarm.create rig.timers job) with
    | .error e => return .created (.error e)
    | .ok () => return .created (.ok (← rig.use get).triggered)
  | .start job => return .started (← rig.use (Alarm.start rig.timers job))
  | .stop => do
    rig.use Alarm.stop
    return .nothing
  | .register job delayMicros =>
    return .registered (← rig.use (Alarm.register rig.timers job delayMicros))
  | .expire => do
    let job ← rig.use Alarm.expire
    liftM (keep job)
    return .flag job.isSome
  | .run => do
    let bench ← liftM (get : BenchM Bench)
    if let some job := bench.kept then
      run job
    return .flag bench.kept.isSome
  | .settle => do
    rig.use Alarm.settle
    return .nothing
  | .dispatch => do
    rig.dispatch run
    return .nothing
  | .destroy => do
    rig.use (Alarm.destroy rig.timers)
    return .nothing
  | .phase => return .phase (← rig.use get).phase
  | .fail call times => do
    liftM (failNext call times)
    return .nothing
  | .setRate hertz => do
    liftM (setRate hertz)
    return .nothing

/-- What the callbacks do, given their argument. -/
abbrev Program := UInt32 → List (Named AlarmStep)

/-- Runs a callback that may nest `depth` more callbacks: its program, each step written down after
it was performed. -/
def runJob (rig : AlarmRig n η φ) (program : Program) : (depth : Nat) → Job → n Unit
  | 0, job => do
    liftM (Bench.note (.callback job))
    liftM (Bench.note .tooDeep)
  | depth + 1, job => do
    liftM (Bench.note (.callback job))
    for named in program job.argument do
      let reply ← rig.perform (rig.runJob program depth) named.step
      liftM (Bench.note (.alarmStep named.name reply))

/-- Performs a step from outside of any callback. -/
def performOutside (rig : AlarmRig n η φ) (program : Program) (step : AlarmStep) : n AlarmReply :=
  rig.perform (rig.runJob program 5) step

end AlarmRig

/-! ### The executor's timer -/

/-- The computations with a facility and a mailbox. -/
abbrev FacilityM := StateT Countdown.Service (StateT Countdown.Mailbox BenchM)

/-- The computations with an alarm on the executor's timer. -/
abbrev ExecutorM := SharedAlarmT Job Unit FacilityM

namespace Bench

/-- The rig of the alarm on the executor's timer. -/
def executorRig : AlarmRig ExecutorM Unit Countdown.Refusal := .shared Countdown.timers

/-- Moves the executor's clock. -/
def advance (micros : Nat) : BenchM Unit :=
  modify fun bench => { bench with micros := bench.micros + micros }

/-- Polls the task once; an expiry fires the alarm. -/
def pollTask (program : AlarmRig.Program) : ExecutorM Unit := do
  let bench ← liftM (get : BenchM Bench)
  let task ← bench.task.poll bench.micros (do
    liftM (note (.expiry bench.micros))
    executorRig.dispatch (executorRig.runJob program 5))
  liftM (modify fun bench => { bench with task } : BenchM Unit)

/-- The uptime of the executor in milliseconds. -/
def executorUptime : Uptime BenchM := Countdown.uptime (return (← get).micros)

/-- Uses the second facility on the task's mailbox. -/
def useSpare {α : Type} (f : FacilityM α) : ExecutorM α := do
  let bench ← liftM (get : BenchM Bench)
  let (a, spare) ← (liftM (f.run bench.spare) : FacilityM (α × Countdown.Service))
  liftM (modify fun bench => { bench with spare } : BenchM Unit)
  return a

end Bench

end ElementHost
