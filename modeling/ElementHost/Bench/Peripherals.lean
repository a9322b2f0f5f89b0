import ElementHost.Bench.Basic

/-!
# The peripherals of the bench

Each peripheral writes down what it is asked and answers as its script says.

* `Bench.masterBus`, a bus master, `Bench.transactionBus`, a bus of whole transactions, and
  `Bench.busOf`, the bus of a kind;
* `Bench.delay`;
* `Bench.timerFacility`;
* `Bench.pinController`, and `Bench.bank`, a bank of pins.
-/

namespace ElementHost.Bench

/-- The buffer with its first `count` bytes filled, counting up from `first`. -/
def fill (first : UInt8) (count : Nat) (buffer : Bytes) : Bytes :=
  buffer.mapIdx fun i byte => if i < count then first + i.toUInt8 else byte

/-- The buffer after a read: a failing read fills only the first half of it. -/
def received {φ : Type} (first : UInt8) (result : Except φ Unit) (buffer : Bytes) : Bytes :=
  fill first (if result.isOk then buffer.length else buffer.length / 2) buffer

/-- Lets the script of the bus master act. -/
def onBus {α : Type} (act : BusScript Fault → α × BusScript Fault) : BenchM α :=
  modifyGet fun bench => ((act bench.bus).1, { bench with bus := (act bench.bus).2 })

/-- Lets the script of the bus of whole transactions act. -/
def onTransactions {α : Type} (act : BusScript Report → α × BusScript Report) : BenchM α :=
  modifyGet fun bench =>
    ((act bench.transactions).1, { bench with transactions := (act bench.transactions).2 })

/-- A bus master. -/
def masterBus : Bus BenchM where
  write address data stop := do
    note (.busWrite address stop data)
    onBus BusScript.write
  read address buffer stop := do
    note (.busRead address stop buffer.length)
    let result ← onBus BusScript.read
    return (result, received (← get).bus.fill result buffer)
  configure speed := do
    note (.busConfigure speed)
    onBus BusScript.configure

/-- Runs the operations of a transaction up to the first that fails. -/
def runOperations : List Operation → BenchM (Except Report Unit × List Operation)
  | [] => return (.ok (), [])
  | operation :: rest => do
    let (result, operation) ← match operation with
      | .write data => do pure (← onTransactions BusScript.write, Operation.write data)
      | .read buffer => do
        let result ← onTransactions BusScript.read
        pure (result, Operation.read (received (← get).transactions.fill result buffer))
    match result with
    | .error _ => return (result, operation :: rest)
    | .ok () => do
      let (result, rest) ← runOperations rest
      return (result, operation :: rest)

/-- A bus of whole transactions. -/
def transactionBus : TransactionBus BenchM where
  transact address operations := do
    note (.transaction address operations)
    runOperations operations

/-- The kinds of bus a bench can have. -/
inductive BusKind
  /-- A bus master. -/
  | raw
  /-- A bus master that keeps the setup it has. -/
  | plain
  /-- A bus of whole transactions. -/
  | transactional
  deriving DecidableEq, Repr

/-- The bus of a kind. -/
def busOf : BusKind → Bus BenchM
  | .raw => masterBus
  | .plain => { masterBus with configure := Bus.keepSetup }
  | .transactional => transactionBus.bus

/-- The clock that delays wait on, as an uptime counter. -/
def delayUptime : Uptime BenchM where
  millis := modifyGet fun bench =>
    match bench.delayClock with
    | none => (0, bench)
    | some clock => (clock.read.1, { bench with delayClock := some clock.read.2 })

/-- A delay: it waits on its clock, if it has one, and is written down. -/
def delay : Delay BenchM where
  wait unit amount := do
    match (← get).delayClock with
    | none => note (.delay unit amount)
    | some clock =>
      modify fun bench => { bench with delayClock := some { clock with reads := 0 } }
      discard ((delayUptime.delay patience).wait unit amount).run
      if let some clock := (← get).delayClock then
        note (.clockedDelay unit amount clock.reads clock.now)

/-- Lets the timer facility act. -/
def onTimers {α : Type} (act : TimerScript → α × TimerScript) : BenchM α :=
  modifyGet fun bench => ((act bench.timers).1, { bench with timers := (act bench.timers).2 })

/-- Whether a call on a timer is accepted: no failure is due and the timer is the live one. -/
def acceptsCall (call : TimerCall) (handle : Nat) : BenchM Bool := do
  let failed ← onTimers (TimerScript.consumeFailure call)
  return !failed && (← get).timers.live == some handle

/-- Success, or failure without a reason. -/
def accepted (ok : Bool) : Except Unit Unit := if ok then .ok () else .error ()

/-- A timer facility. -/
def timerFacility : Timers BenchM Nat Unit where
  rate := return (← get).timers.rate
  create name ticks := do
    if ← onTimers (TimerScript.consumeFailure .create) then
      note (.timerCreate name ticks none)
      return .error ()
    else
      let handle ← onTimers fun script =>
        (script.made + 1, { script with made := script.made + 1, live := some (script.made + 1) })
      note (.timerCreate name ticks (some handle))
      return .ok handle
  start handle ticks := do
    let ok ← acceptsCall .start handle
    note (.timerStart handle ticks ok)
    return accepted ok
  stop handle := do
    let ok ← acceptsCall .stop handle
    note (.timerStop handle ok)
    return accepted ok
  delete handle := do
    let ok ← acceptsCall .delete handle
    note (.timerDelete handle ok)
    if ok then
      onTimers fun script => ((), { script with live := none })
    return accepted ok

/-- A controller that refuses to set some pins up. -/
def pinController : PinController BenchM PinBank.Error where
  setUp port pin setup := do
    let ok := !(← get).pins.refusing.contains pin.toNat
    note (.pinSetUp port pin setup ok)
    return if ok then .ok () else .error .refused
  drive port pin level := note (.pinDrive port pin level)

/-- The pin with an index, which may refuse to be driven. -/
def bankPin (index : Nat) : OutputPin BenchM where
  drive level := do
    let ok := !(← get).pins.refusing.contains index
    note (.bankDrive index level ok)
    if ok then
      modify fun bench => { bench with
        pins := { bench.pins with levels := bench.pins.levels.set index (some level) } }
    return ok

/-- A bank of `size` pins at a port. -/
def bank (port : UInt8) (size : Nat) : PinBank BenchM := ⟨port, (List.range size).map bankPin⟩

end ElementHost.Bench
