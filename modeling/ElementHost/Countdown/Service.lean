import ElementHost.Alarm.Timers

/-!
# A single timer served by a task

A facility of exactly one timer.  It does not count ticks itself: its orders go into a mailbox
that a task empties (`ElementHost.Countdown.Task`).  The mailbox holds one order, and a newer one
replaces an older one, which is what starting anew means.

* `Countdown.Order`, `Countdown.Mailbox`;
* `Countdown.Service`, the state of the facility, and `Countdown.timers`, the facility.

One tick is a microsecond.  The timer exists or it does not: creating it twice is refused, and so
is starting, stopping or deleting it while it does not exist.
-/

namespace ElementHost.Countdown

/-- An order to the task. -/
inductive Order
  /-- Expire after so many ticks from the moment the order is taken. -/
  | start (ticks : UInt32)
  /-- Forget a pending expiry. -/
  | stop
  deriving DecidableEq, Repr

/-- The mailbox between the facility and the task. -/
structure Mailbox where
  waiting : Option Order := none
  deriving DecidableEq, Repr, Inhabited

/-- Puts an order into the mailbox, in place of any other. -/
def Mailbox.post (order : Order) (_ : Mailbox) : Mailbox := ⟨some order⟩

/-- Takes the waiting order, if there is one. -/
def Mailbox.take (mailbox : Mailbox) : Option Order × Mailbox := (mailbox.waiting, {})

/-- Why the facility refused a call. -/
inductive Refusal
  /-- The timer exists already. -/
  | alreadyCreated
  /-- The timer does not exist. -/
  | notCreated
  deriving DecidableEq, Repr

/-- The state of the facility: whether its timer exists. -/
structure Service where
  created : Bool := false
  deriving DecidableEq, Repr, Inhabited

variable {m : Type → Type} [Monad m]

/-- Ticks per second. -/
def tickRate : UInt32 := 1000000

/-- Creates the timer. -/
def create : StateT Service (StateT Mailbox m) (Except Refusal Unit) := do
  let service : Service ← get
  if service.created then
    return .error .alreadyCreated
  else
    set { service with created := true }
    return .ok ()

/-- Posts an order, if the timer exists. -/
def order (o : Order) : StateT Service (StateT Mailbox m) (Except Refusal Unit) := do
  let service : Service ← get
  if service.created then
    modifyThe Mailbox (Mailbox.post o)
    return .ok ()
  else
    return .error .notCreated

/-- Deletes the timer, which stops it first. -/
def delete : StateT Service (StateT Mailbox m) (Except Refusal Unit) := do
  match ← order .stop with
  | .error e => return .error e
  | .ok () =>
    set ({ created := false } : Service)
    return .ok ()

/-- The facility.  There is one timer, so its handle says nothing. -/
def timers : Timers (StateT Service (StateT Mailbox m)) Unit Refusal where
  rate := pure tickRate
  create _ _ := create
  start _ ticks := order (.start ticks)
  stop _ := order .stop
  delete _ := delete

end ElementHost.Countdown
