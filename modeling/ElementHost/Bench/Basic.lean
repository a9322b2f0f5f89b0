import ElementHost.Bench.Entry
import ElementHost.Bench.Ticker

/-!
# The bench

The state of a bench: the record of what was seen, and the scripts of its peripherals.

* `BusScript`, the outcomes a bus is made to have;
* `TimerScript`, a timer facility with one live timer;
* `PinScript`, pins that may refuse to be driven;
* `Bench`, all of it, and `BenchM`, computations on the bench.
-/

namespace ElementHost

/-- The outcomes that a bus is made to have, with reasons of failure `φ`.  A transfer beyond the
script succeeds. -/
structure BusScript (φ : Type) where
  writes : List (Except φ Unit) := []
  reads : List (Except φ Unit) := []
  configures : List (Except φ Unit) := []
  /-- The first byte that is read. -/
  fill : UInt8 := 0
  deriving Inhabited

namespace BusScript

variable {φ : Type}

/-- The script with more outcomes behind it, and another first byte if one is given. -/
def extend (script more : BusScript φ) (fill : Option UInt8) : BusScript φ where
  writes := script.writes ++ more.writes
  reads := script.reads ++ more.reads
  configures := script.configures ++ more.configures
  fill := fill.getD script.fill

/-- The next outcome of a queue, and the rest of it. -/
def nextOutcome : List (Except φ Unit) → Except φ Unit × List (Except φ Unit)
  | [] => (.ok (), [])
  | outcome :: rest => (outcome, rest)

/-- The outcome of the next write. -/
def write (script : BusScript φ) : Except φ Unit × BusScript φ :=
  let (outcome, writes) := nextOutcome script.writes
  (outcome, { script with writes })

/-- The outcome of the next read. -/
def read (script : BusScript φ) : Except φ Unit × BusScript φ :=
  let (outcome, reads) := nextOutcome script.reads
  (outcome, { script with reads })

/-- The outcome of the next configuration. -/
def configure (script : BusScript φ) : Except φ Unit × BusScript φ :=
  let (outcome, configures) := nextOutcome script.configures
  (outcome, { script with configures })

end BusScript

/-- A facility whose handles count up from 1, and whose newest timer is the live one. -/
structure TimerScript where
  rate : UInt32 := 1000
  made : Nat := 0
  live : Option Nat := none
  /-- How many calls of a kind are still made to fail. -/
  failures : TimerCall → Nat := fun _ => 0
  deriving Inhabited

/-- Consumes a failure of a call, if one is due, and tells whether it was. -/
def TimerScript.consumeFailure (call : TimerCall) (script : TimerScript) : Bool × TimerScript :=
  if script.failures call = 0 then (false, script)
  else (true, { script with
    failures := fun other =>
      if other = call then script.failures call - 1 else script.failures other })

/-- Pins by number, with the level each was driven to last. -/
structure PinScript where
  /-- The numbers of the pins that refuse. -/
  refusing : List Nat := []
  levels : List (Option Level) := []
  deriving Inhabited

/-- The state of a bench. -/
structure Bench where
  trace : Array Entry := #[]
  bus : BusScript Fault := {}
  /-- The script of a bus that offers whole transactions. -/
  transactions : BusScript Report := {}
  /-- The clock that delays wait on; without one they are only written down. -/
  delayClock : Option Ticker := none
  clock : Ticker := {}
  timers : TimerScript := {}
  pins : PinScript := {}
  /-- The job that an expiry handed out last, if it did. -/
  kept : Option Job := none
  /-- How often a wait has relaxed. -/
  relaxed : Nat := 0
  /-- The clock of the executor, in microseconds. -/
  micros : Nat := 0
  /-- The task that serves the timer. -/
  task : Countdown.Task := .idle
  /-- A second facility on the task's mailbox. -/
  spare : Countdown.Service := {}
  deriving Inhabited

/-- Computations on the bench. -/
abbrev BenchM := StateM Bench

namespace Bench

/-- Writes an entry down. -/
def note (entry : Entry) : BenchM Unit :=
  modify fun bench => { bench with trace := bench.trace.push entry }

/-- Takes the record, which is empty afterwards. -/
def takeTrace : BenchM (Array Entry) :=
  modifyGet fun bench => (bench.trace, { bench with trace := #[] })

/-- Starts counting readings and relaxations anew. -/
def resetCounts : BenchM Unit :=
  modify fun bench => { bench with clock := { bench.clock with reads := 0 }, relaxed := 0 }

/-- Reads the clock. -/
def readClock : BenchM UInt32 :=
  modifyGet fun bench => (bench.clock.read.1, { bench with clock := bench.clock.read.2 })

/-- The clock as an uptime counter. -/
def uptime : Uptime BenchM := ⟨readClock⟩

/-- More readings than any wait on the bench can use up. -/
def patience : Nat := 0x10000000000

end Bench

end ElementHost
