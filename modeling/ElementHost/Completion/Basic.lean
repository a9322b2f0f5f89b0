import ElementHost.Link.Basic

/-!
# Completions

A completion holds the status of one operation at a time.  It is armed before the operation is
issued, and from then on it is busy until the first final status is published; later ones are
refused until it is armed again.  One signal goes with it, which wakes a waiting future when a
status has been published.

* `Status`, the codes, and `Status.ofOutcome`, the code of a link's report;
* `Signal`, with `Signal.raise` and `Signal.poll`;
* `Completion`, with `Completion.arm`, `Completion.publish` and `Completion.result`.

A completion that was never armed reads as a success.
-/

namespace ElementHost

/-- A status code of an operation. -/
abbrev Status := UInt16

namespace Status

/-- The operation succeeded. -/
def success : Status := 0x0000

/-- The operation is in flight.  This is not a final status. -/
def busy : Status := 0x0001

/-- The link reported a failure on the bus. -/
def linkFailure : Status := 0x8001

/-- The link reported that its token was held. -/
def linkBusy : Status := 0x8002

/-- The operation was ended by a timeout. -/
def timeout : Status := 0x8003

/-- The status that stands for a link's report. -/
def ofOutcome : Link.Outcome → Status
  | .success => success
  | .failure => linkFailure
  | .busy => linkBusy

/-- Every report of a link is a final status. -/
theorem ofOutcome_ne_busy (outcome : Link.Outcome) : ofOutcome outcome ≠ busy := by
  cases outcome <;> decide

end Status

/-- What a future leaves behind to be woken by. -/
abbrev Waker := Nat

/-- A signal between a publisher and one waiting future. -/
inductive Signal
  /-- Nothing was signalled and nobody waits. -/
  | quiet
  /-- A future waits and has left its waker. -/
  | awaited (waker : Waker)
  /-- The signal was raised and nobody has seen it yet. -/
  | raised
  deriving DecidableEq, Repr, Inhabited

namespace Signal

/-- The waker that raising the signal wakes. -/
def sleeper : Signal → Option Waker
  | .awaited waker => some waker
  | _ => none

/-- The waker that is woken when `waker` starts to wait: another one that waited so far. -/
def displaced (waker : Waker) (signal : Signal) : Option Waker :=
  signal.sleeper.filter (· != waker)

end Signal

/-- The status of one operation at a time. -/
structure Completion where
  status : Status := Status.success
  signal : Signal := .quiet
  /-- The wakers woken so far, the latest first. -/
  woken : List Waker := []
  deriving DecidableEq, Repr, Inhabited

namespace Completion

/-- The final status, or `none` while the operation is in flight. -/
def result (c : Completion) : Option Status :=
  if c.status = Status.busy then none else some c.status

/-- Whether the operation is in flight. -/
def isBusy (c : Completion) : Bool := c.result.isNone

/-- Prepares for the next operation.  A future that waits is forgotten and not woken. -/
def arm (c : Completion) : Completion := { c with status := Status.busy, signal := .quiet }

/-- Raises the signal and wakes the future that waits for it. -/
def raise (c : Completion) : Completion :=
  { c with signal := .raised, woken := c.signal.sleeper.toList ++ c.woken }

/-- Leaves a waker to be woken by.  One waker has room: another one is woken and displaced. -/
def park (waker : Waker) (c : Completion) : Completion :=
  { c with signal := .awaited waker, woken := (c.signal.displaced waker).toList ++ c.woken }

/-- Publishes the final status of the operation in flight, and tells whether that was accepted.
It is not if nothing is in flight or if the status is not a final one; then nothing changes. -/
def publish (status : Status) (c : Completion) : Bool × Completion :=
  if status ≠ Status.busy ∧ c.status = Status.busy then (true, raise { c with status })
  else (false, c)

@[simp] theorem signal_raise (c : Completion) : c.raise.signal = .raised := rfl

@[simp] theorem signal_park (waker : Waker) (c : Completion) :
    (c.park waker).signal = .awaited waker := rfl

@[simp] theorem result_park (waker : Waker) (c : Completion) : (c.park waker).result = c.result :=
  rfl

/-- An armed completion has no result. -/
@[simp] theorem result_arm (c : Completion) : c.arm.result = none := rfl

/-- A completion is busy exactly while its status is the busy one. -/
theorem result_eq_none_iff (c : Completion) : c.result = none ↔ c.status = Status.busy := by
  unfold result
  split <;> simp_all

/-- An accepted status is the result. -/
theorem result_publish_of_accepted {status : Status} {c : Completion}
    (h : (c.publish status).1 = true) : (c.publish status).2.result = some status := by
  unfold publish at h ⊢
  split at h <;> simp_all [raise, result]

/-- A refused status changes nothing. -/
theorem publish_of_refused {status : Status} {c : Completion} (h : (c.publish status).1 = false) :
    (c.publish status).2 = c := by
  unfold publish at h ⊢
  split at h
  · simp at h
  · rename_i hc
    rw [if_neg hc]

end Completion

/-- Publishes a status in a computation that holds a completion. -/
def publishStatus {m : Type → Type} [MonadStateOf Completion m] (status : Status) : m Bool :=
  modifyGetThe Completion (Completion.publish status)

/-- The receiver of reports that publishes each one's status. -/
def publishOutcome {m : Type → Type} [Monad m] [MonadStateOf Completion m]
    (outcome : Link.Outcome) : m Unit :=
  discard (publishStatus (Status.ofOutcome outcome))

end ElementHost
