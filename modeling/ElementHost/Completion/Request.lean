import ElementHost.Completion.Future
import ElementHost.Completion.Wait

/-!
# Requests

A request arms the completion, issues an operation, and waits for its result unless the operation
was turned down.  There are three ways to wait, and one verdict.

* `Request.Error` and `Request.verdict`;
* `Request.run`, `Request.runUntil`, which wait by polling;
* `Request.Future` and `Request.Future.poll`, which do not.

Issuing is a computation that ends in `.error code` if the operation was turned down.
-/

namespace ElementHost.Request

/-- Why a request did not succeed. -/
inductive Error
  /-- The operation could not be issued. -/
  | rejected (code : Status)
  /-- The operation ended with this status. -/
  | failed (code : Status)
  /-- The caller stopped waiting; the operation may still be completed. -/
  | timedOut
  deriving DecidableEq, Repr

/-- What a final status says about a request. -/
def verdict (status : Status) : Except Error Unit :=
  if status = Status.success then .ok () else .error (.failed status)

variable {m : Type → Type} [Monad m] [MonadStateOf Completion m]

/-- Arms the completion. -/
def armCompletion : m Unit := modifyThe Completion Completion.arm

/-- Issues an operation and polls until it is done, with `relax` between two polls. -/
def run (relax : m Unit) (bound : Nat) (issue : m (Except Status Unit)) :
    OptionT m (Except Error Unit) := do
  (armCompletion : m Unit)
  match ← issue with
  | .error code => return .error (.rejected code)
  | .ok () => return verdict (← Completion.spin relax bound)

/-- Issues an operation and polls until it is done or `timeout` milliseconds have passed since it
was issued. -/
def runUntil (uptime : Uptime m) (timeout : UInt32) (bound : Nat) (issue : m (Except Status Unit)) :
    OptionT m (Except Error Unit) := do
  (armCompletion : m Unit)
  match ← issue with
  | .error code => return .error (.rejected code)
  | .ok () =>
    match ← Completion.waitUntil uptime timeout bound with
    | .error .timedOut => return .error .timedOut
    | .ok status => return verdict status

/-- A request as a future. -/
inductive Future (m : Type → Type)
  /-- The operation has not been issued. -/
  | unissued (issue : m (Except Status Unit))
  /-- The operation has been issued. -/
  | waiting (wait : Completion.Wait)

/-- Polls the wait of a request whose operation has been issued. -/
def awaitVerdict (waker : Waker) (wait : Completion.Wait) :
    m (Poll (Except Error Unit) (Future m)) := do
  match ← modifyGetThe Completion (wait.poll waker) with
  | .ready status => return .ready (verdict status)
  | .pending wait => return .pending (.waiting wait)

/-- Polls a request on behalf of `waker`.  The first poll arms the completion and issues the
operation. -/
def Future.poll (waker : Waker) : Future m → m (Poll (Except Error Unit) (Future m))
  | .unissued issue => do
    armCompletion
    match ← issue with
    | .error code => return .ready (.error (.rejected code))
    | .ok () => awaitVerdict waker .fresh
  | .waiting wait => awaitVerdict waker wait

end ElementHost.Request
