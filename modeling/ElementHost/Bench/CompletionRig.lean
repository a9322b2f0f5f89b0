import ElementHost.Bench.Peripherals

/-!
# Completions on the bench

A completion is used together with the bench's clock, and statuses may be published in the middle
of a wait: during a reading of the clock, or while the wait relaxes.

* `CompletionM`, the computations with a completion;
* `CompletionRig.perform`, one step, and `CompletionRig.issue`, an operation made of steps;
* `CompletionRig.uptime`, `CompletionRig.relax`, where statuses are published in the middle of a
  wait;
* `CompletionRig.Future`, the futures, and `CompletionRig.pollFuture`.
-/

namespace ElementHost

/-- The computations with a completion. -/
abbrev CompletionM := StateT Completion BenchM

/-- A status to be published at a moment of a wait, counted from 1. -/
structure Publication where
  moment : Nat
  status : Status
  deriving DecidableEq, Repr

namespace CompletionRig

/-- Performs a step. -/
def perform : CompletionStep → CompletionM CompletionReply
  | .arm => do
    (Request.armCompletion : CompletionM Unit)
    return .nothing
  | .publish status => return .flag (← publishStatus status)
  | .publishOutcome outcome => return .flag (← publishStatus (Status.ofOutcome outcome))
  | .notify outcome => do
    (publishOutcome outcome : CompletionM Unit)
    return .nothing
  | .result => return .result (← getThe Completion).result
  | .isBusy => return .flag (← getThe Completion).isBusy

/-- An operation that performs steps, writes each down, and is turned down with a code if one is
given. -/
def issue (steps : List (Named CompletionStep)) (code : Option Status) :
    CompletionM (Except Status Unit) := do
  Bench.note (.issue (← getThe Completion).result)
  for named in steps do
    let reply ← perform named.step
    Bench.note (.completionStep named.name reply)
  return match code with
    | none => .ok ()
    | some code => .error code

/-- Publishes what is due at a moment, each publication written down by `entry`. -/
def publishDue (publications : List Publication) (moment : Nat) (entry : Bool → Entry) :
    CompletionM Unit :=
  for publication in publications do
    if publication.moment = moment then
      let accepted ← publishStatus publication.status
      Bench.note (entry accepted)

/-- The clock; publications happen during its readings. -/
def uptime (publications : List Publication) : Uptime CompletionM where
  millis := do
    let now ← liftM Bench.readClock
    let moment := (← getThe Bench).clock.reads
    publishDue publications moment (.hook moment)
    return now

/-- What a wait does between two polls; publications happen then. -/
def relax (publications : List Publication) : CompletionM Unit := do
  modifyThe Bench fun bench => { bench with relaxed := bench.relaxed + 1 }
  let moment := (← getThe Bench).relaxed
  publishDue publications moment (.relaxed moment)

/-- A future on the bench. -/
inductive Future
  | wait (future : Completion.Wait)
  | request (future : Request.Future CompletionM)

/-- What a finished future ends in. -/
inductive Outcome
  | status (status : Status)
  | request (result : Except Request.Error Unit)

/-- Polls a future on behalf of a waker. -/
def pollFuture (waker : Waker) : Future → CompletionM (Poll Outcome Future)
  | .wait future => do
    match ← modifyGetThe Completion (future.poll waker) with
    | .ready status => return .ready (.status status)
    | .pending future => return .pending (.wait future)
  | .request future => do
    match ← future.poll waker with
    | .ready result => return .ready (.request result)
    | .pending future => return .pending (.request future)

end CompletionRig

end ElementHost
