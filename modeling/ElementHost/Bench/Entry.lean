import ElementHost.Bus.Transaction
import ElementHost.Completion.Request
import ElementHost.Countdown.Task
import ElementHost.Link.Command
import ElementHost.Pins.Bank
import ElementHost.Pins.Lines
import ElementHost.Alarm.Shared

/-!
# What the bench writes down

A bench runs a host against peripherals that follow a script, and writes down what they see, in
order.  The jobs of its alarms are callbacks with a name and an argument.

* `Job`, `AlarmStep`, `AlarmReply`, what is asked of an alarm and answered;
* `CompletionStep`, `CompletionReply`, the same for a completion;
* `Entry`, one line of the record.
-/

namespace ElementHost

/-- The two callbacks of the bench. -/
inductive Callback
  | a
  | b
  deriving DecidableEq, Repr, Inhabited

/-- A callback together with its argument. -/
structure Job where
  callback : Callback := .a
  argument : UInt32 := 0
  deriving DecidableEq, Repr, Inhabited

/-- The calls of a timer facility that may be made to fail. -/
inductive TimerCall
  | create
  | start
  | stop
  | delete
  deriving DecidableEq, Repr

/-- Something to do with an alarm on the bench. -/
inductive AlarmStep
  | create (job : Option Job)
  | start (job : Job)
  | stop
  | register (job : Job) (delayMicros : UInt32)
  /-- Expires the alarm and keeps what it hands out. -/
  | expire
  /-- Runs the kept job. -/
  | run
  | settle
  /-- Expires the alarm, runs its job and settles. -/
  | dispatch
  | destroy
  | phase
  /-- Makes the next calls of a kind fail. -/
  | fail (call : TimerCall) (times : Nat)
  | setRate (hertz : UInt32)
  deriving DecidableEq, Repr

/-- What an alarm answers to a step. -/
inductive AlarmReply
  | nothing
  | flag (value : Bool)
  /-- Whether the alarm is triggered after its creation. -/
  | created (result : Except Alarm.Error Bool)
  | started (result : Except Alarm.Error (Option Alarm.Arming))
  | registered (result : Except Alarm.Error Alarm.Arming)
  | phase (phase : Alarm.Phase)

/-- A step under the name it is written down with. -/
structure Named (σ : Type) where
  name : String
  step : σ

/-- Something to do with a completion on the bench. -/
inductive CompletionStep
  | arm
  | publish (status : Status)
  | publishOutcome (outcome : Link.Outcome)
  /-- Hands an outcome to the receiver of a link's reports. -/
  | notify (outcome : Link.Outcome)
  | result
  | isBusy
  deriving DecidableEq, Repr

/-- What a completion answers to a step. -/
inductive CompletionReply
  | nothing
  | flag (value : Bool)
  | result (result : Option Status)

/-- One line of the record. -/
inductive Entry
  | busWrite (address : UInt8) (stop : Bool) (data : Bytes)
  | busRead (address : UInt8) (stop : Bool) (size : Nat)
  | busConfigure (speed : Bus.Speed)
  | transaction (address : UInt8) (operations : List Operation)
  | delay (unit : TimeUnit) (amount : UInt32)
  /-- A delay on a clock, with the readings it took and the clock afterwards. -/
  | clockedDelay (unit : TimeUnit) (amount : UInt32) (reads : Nat) (now : UInt32)
  | outcome (outcome : Link.Outcome)
  | pinSetUp (port pin : UInt8) (setup : PinSetup) (accepted : Bool)
  | pinDrive (port pin : UInt8) (level : Level)
  /-- A level written to a pin of a bank. -/
  | bankDrive (index : Nat) (level : Level) (accepted : Bool)
  | timerCreate (name : String) (ticks : UInt32) (handle : Option Nat)
  | timerStart (handle : Nat) (ticks : UInt32) (accepted : Bool)
  | timerStop (handle : Nat) (accepted : Bool)
  | timerDelete (handle : Nat) (accepted : Bool)
  | callback (job : Job)
  /-- A callback that is nested too deeply to do anything. -/
  | tooDeep
  | alarmStep (name : String) (reply : AlarmReply)
  | expiry (micros : Nat)
  | relaxed (count : Nat) (accepted : Bool)
  | hook (read : Nat) (accepted : Bool)
  | issue (result : Option Status)
  | completionStep (name : String) (reply : CompletionReply)
  | forced (argument : UInt32) (accepted : Bool)
  | returned (result : Except Link.Error Unit)

end ElementHost
