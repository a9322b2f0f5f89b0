import ElementHost.Bench.Peripherals

/-!
# A whole host on the bench

A link whose reports are published in a completion, and a shared alarm whose jobs resolve the
operation in flight: the host as it stands on a board.  The alarm may expire during any reading of
the clock.

* `HostM`, the computations with the parts of a host and a caller's buffer;
* `HostRig.wiring`, what the link is wired to;
* `HostRig.fire`, an expiry of the alarm, and `HostRig.uptime`, a clock during whose readings it
  happens;
* `HostRig.request`, a request over the link, with or without a timeout.
-/

namespace ElementHost

/-- The computations under the link of a host. -/
abbrev UnderLinkM := SharedAlarmT Job Nat (StateT Completion BenchM)

/-- The computations with all parts of a host, and the buffer its caller reads into. -/
abbrev HostM := StateT Bytes (StateT Link UnderLinkM)

namespace HostRig

/-- What the link is wired to: each report is written down and its status published. -/
def wiring (kind : Bench.BusKind) : Link.Wiring UnderLinkM where
  bus := (Bench.busOf kind).lift
  delay := Bench.delay.lift
  notify outcome := do
    liftM (Bench.note (.outcome outcome))
    publishOutcome outcome

/-- The timer facility of the alarm. -/
def timers : Timers UnderLinkM Nat Unit := Bench.timerFacility.lift

/-- Runs a job: its argument is published as a status. -/
def runJob (job : Job) : UnderLinkM Unit := do
  liftM (Bench.note (.callback job))
  let accepted ← publishStatus job.argument.toUInt16
  liftM (Bench.note (.forced job.argument accepted))

/-- An expiry of the alarm. -/
def fire : UnderLinkM Unit := SharedAlarm.fire runJob

/-- Uses the alarm. -/
def useAlarm {α : Type} (f : StateT (Alarm Job Nat) UnderLinkM α) : HostM α :=
  liftM (SharedAlarm.use f)

/-- The clock; the alarm expires during the readings with the given numbers, counted from 1. -/
def uptime (expiries : List Nat) : Uptime HostM where
  millis := do
    let now ← liftM Bench.readClock
    let bench ← liftM (get : BenchM Bench)
    if expiries.contains bench.clock.reads then
      liftM fire
    return now

/-- Sends bytes over the link. -/
def write (wiring : Link.Wiring UnderLinkM) (data : Bytes) : HostM (Except Link.Error Unit) :=
  StateT.lift (Link.write wiring data)

/-- Fills the caller's buffer over the link. -/
def read (wiring : Link.Wiring UnderLinkM) : HostM (Except Link.Error Unit) := do
  let (result, buffer) ← StateT.lift (Link.read wiring (← getThe Bytes))
  set buffer
  return result

/-- The code of an operation that its link refused. -/
def codeOf (e : Link.Error) : Status := Status.ofOutcome e.outcome

/-- The operation of a request: a use of the link whose result is written down.  A lenient caller
takes an operation for issued although the link failed. -/
def operation (lenient : Bool) (transfer : HostM (Except Link.Error Unit)) :
    HostM (Except Status Unit) := do
  let result ← transfer
  liftM (Bench.note (.returned result))
  return if lenient then .ok () else result.mapError codeOf

/-- A request over the link that waits, at most `timeout` milliseconds if one is given. -/
def request (expiries : List Nat) (timeout : Option UInt32) (issue : HostM (Except Status Unit)) :
    OptionT HostM (Except Request.Error Unit) :=
  match timeout with
  | none => Request.run (pure ()) Bench.patience issue
  | some timeout => Request.runUntil (uptime expiries) timeout Bench.patience issue

end HostRig

end ElementHost
