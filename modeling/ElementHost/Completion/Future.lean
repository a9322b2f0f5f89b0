import ElementHost.Completion.Basic

/-!
# Waiting for a completion without polling it

A future that waits for a completion looks at the status first.  While the operation is in flight
it leaves a waker with the signal and is suspended there; when it is polled again it looks at the
signal, and at the status only after the signal was raised.

* `Poll`, the answer to a poll;
* `Completion.await`, the look at the status and then at the signal;
* `Completion.Wait`, the future, and `Completion.Wait.poll`.

A future that is dropped leaves the signal as it is.
-/

namespace ElementHost

/-- The answer to polling a future. -/
inductive Poll (α φ : Type)
  /-- It is done. -/
  | ready (a : α)
  /-- It is suspended, as this future. -/
  | pending (future : φ)
  deriving DecidableEq, Repr

namespace Completion

/-- A future that waits for the result of a completion. -/
inductive Wait
  /-- It has not been polled yet. -/
  | fresh
  /-- It is suspended on the signal. -/
  | suspended
  deriving DecidableEq, Repr, Inhabited

/-- One if the signal is raised: how often it can still be seen raised without being raised anew. -/
def unseen (c : Completion) : Nat := if c.signal = .raised then 1 else 0

/-- Looks at the status, then at the signal, and again at the status after a raised signal. -/
def await (waker : Waker) (c : Completion) : Poll Status Wait × Completion :=
  match c.result with
  | some status => (.ready status, c)
  | none =>
    if _h : c.signal = .raised then await waker { c with signal := .quiet }
    else (.pending .suspended, c.park waker)
termination_by c.unseen
decreasing_by simp [unseen, _h]

/-- A future that waits for a result that is there is ready at once. -/
theorem await_of_result {c : Completion} {status : Status} (h : c.result = some status)
    (waker : Waker) : c.await waker = (.ready status, c) := by
  rw [await, h]

/-- A future that waits for a result that is not there is suspended, unless the signal was left
raised. -/
theorem await_of_busy {c : Completion} (h : c.result = none) (hs : c.signal ≠ .raised)
    (waker : Waker) : c.await waker = (.pending .suspended, c.park waker) := by
  rw [await, h]
  exact dif_neg hs

/-- Polls a future that was left suspended: a raised signal sends it back to the status, any other
lets it wait on. -/
def resume (waker : Waker) (c : Completion) : Poll Status Wait × Completion :=
  if c.signal = .raised then await waker { c with signal := .quiet }
  else (.pending .suspended, c.park waker)

/-- Polls a future on behalf of `waker`. -/
def Wait.poll (waker : Waker) : Wait → Completion → Poll Status Wait × Completion
  | .fresh => await waker
  | .suspended => resume waker

end Completion

end ElementHost
