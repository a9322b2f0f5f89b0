import ElementHost.Completion.Future
import ElementHost.Proofs.Completion.Assignment
import Mathlib.Logic.Function.Basic

/-!
# A completion and the futures that wait for it

Futures come to wait for a completion, are polled and dropped, and in between the completion is
armed and statuses are published, in any order.

* `Coherent`: a raised signal tells of a result;
* `Wait.pollWithin`, a poll that may look at the status so many times, with
  `Coherent.pollWithin_one`;
* `Coherent.poll_ready_iff`, `Coherent.poll_pending_iff`, what a poll answers;
* `Room`, a completion and its futures, with `Room.Step`, `Room.step` and `Room.run`;
* `coherent_run`, `result_step`, `suspended_step`, what the steps do to the signal, to the result
  and to the futures.
-/

namespace ElementHost

/-- What is left of a future after its answer. -/
def Poll.rest {α φ : Type} : Poll α φ → Option φ
  | .ready _ => none
  | .pending future => some future

theorem Poll.rest_eq_some_iff {α φ : Type} (answer : Poll α φ) (future : φ) :
    answer.rest = some future ↔ answer = .pending future := by
  cases answer <;> simp [rest]

namespace Completion

/-- A publication does nothing, or it resolves the operation in flight. -/
theorem Call.exec_of_ne_arm {call : Call} (hcall : call ≠ .arm) (c : Completion) :
    (call.exec c).2 = c ∨
      c.result = none ∧
        ∃ status, status ≠ Status.busy ∧ (call.exec c).2 = raise { c with status } := by
  cases hstatus : call.status? with
  | none => exact absurd ((Call.status?_eq_none_iff call).1 hstatus) hcall
  | some status =>
    rw [Call.exec_of_status hstatus]
    cases haccepted : (c.publish status).1 with
    | false => exact .inl (publish_of_refused haccepted)
    | true =>
      have h := (publish_accepted_iff ..).1 haccepted
      refine .inr ⟨(result_eq_none_iff c).2 h.2, status, h.1, ?_⟩
      rw [Completion.publish, if_pos h]

theorem result_raise_ne_none {c : Completion} {status : Status} (h : status ≠ Status.busy) :
    (raise { c with status }).result ≠ none := fun hnone => h ((result_eq_none_iff _).1 hnone)

/-! ### Polls -/

/-- A raised signal tells of a result. -/
def Coherent (c : Completion) : Prop := c.signal = .raised → c.result ≠ none

/-- A wait that may look at the status so many times; there is no answer if it wants to look once
more. -/
def awaitWithin (waker : Waker) : Nat → Completion → Option (Poll Status Wait × Completion)
  | 0, _ => none
  | looks + 1, c =>
    match c.result with
    | some status => some (.ready status, c)
    | none =>
      if c.signal = .raised then awaitWithin waker looks { c with signal := .quiet }
      else some (.pending .suspended, c.park waker)

/-- A poll that may look at the status so many times. -/
def Wait.pollWithin (waker : Waker) (looks : Nat) :
    Wait → Completion → Option (Poll Status Wait × Completion)
  | .fresh, c => awaitWithin waker looks c
  | .suspended, c =>
    if c.signal = .raised then awaitWithin waker looks { c with signal := .quiet }
    else some (.pending .suspended, c.park waker)

@[simp] theorem result_quiet (c : Completion) :
    ({ c with signal := .quiet } : Completion).result = c.result := rfl

theorem poll_suspended_of_raised {c : Completion} {status : Status} (h : c.result = some status)
    (hs : c.signal = .raised) (waker : Waker) :
    Wait.suspended.poll waker c = (.ready status, { c with signal := .quiet }) := by
  rw [Wait.poll, resume, if_pos hs]
  exact await_of_result ((result_quiet c).trans h) waker

theorem poll_suspended_of_not_raised {c : Completion} (hs : c.signal ≠ .raised) (waker : Waker) :
    Wait.suspended.poll waker c = (.pending .suspended, c.park waker) := by
  rw [Wait.poll, resume, if_neg hs]

namespace Coherent

variable {c : Completion}

/-- While the operation is in flight, every future that is polled is suspended. -/
theorem poll_of_busy (hc : c.Coherent) (h : c.result = none) (future : Wait) (waker : Waker) :
    future.poll waker c = (.pending .suspended, c.park waker) := by
  have hs : c.signal ≠ .raised := fun hs => hc hs h
  cases future with
  | fresh => exact await_of_busy h hs waker
  | suspended => exact poll_suspended_of_not_raised hs waker

/-- A poll leaves the result alone. -/
theorem result_poll (hc : c.Coherent) (future : Wait) (waker : Waker) :
    (future.poll waker c).2.result = c.result := by
  cases h : c.result with
  | none =>
    rw [hc.poll_of_busy h]
    exact h
  | some status =>
    cases future with
    | fresh =>
      rw [Wait.poll, await_of_result h]
      exact h
    | suspended =>
      by_cases hs : c.signal = .raised
      · rw [poll_suspended_of_raised h hs]
        exact h
      · rw [poll_suspended_of_not_raised hs]
        exact h

/-- A poll is answered if there is a result, and the future is fresh or finds the signal raised. -/
theorem poll_ready_iff (hc : c.Coherent) (future : Wait) (waker : Waker) (status : Status) :
    (future.poll waker c).1 = .ready status ↔
      c.result = some status ∧ (future = .fresh ∨ c.signal = .raised) := by
  cases h : c.result with
  | none => simp [hc.poll_of_busy h]
  | some final =>
    cases future with
    | fresh => simp [Wait.poll, await_of_result h]
    | suspended =>
      by_cases hs : c.signal = .raised
      · simp [poll_suspended_of_raised h hs, hs]
      · simp [poll_suspended_of_not_raised hs, hs]

/-- Otherwise the future is suspended. -/
theorem poll_pending_iff (hc : c.Coherent) (future : Wait) (waker : Waker) :
    (future.poll waker c).1 = .pending .suspended ↔
      c.result = none ∨ future = .suspended ∧ c.signal ≠ .raised := by
  cases h : c.result with
  | none => simp [hc.poll_of_busy h]
  | some final =>
    cases future with
    | fresh => simp [Wait.poll, await_of_result h]
    | suspended =>
      by_cases hs : c.signal = .raised
      · simp [poll_suspended_of_raised h hs, hs]
      · simp [poll_suspended_of_not_raised hs, hs]

/-- One look at the status is enough for a poll. -/
theorem pollWithin_one (hc : c.Coherent) (future : Wait) (waker : Waker) :
    future.pollWithin waker 1 c = some (future.poll waker c) := by
  cases h : c.result with
  | none =>
    have hs : c.signal ≠ .raised := fun hs => hc hs h
    rw [hc.poll_of_busy h]
    cases future <;> simp [Wait.pollWithin, awaitWithin, h, hs]
  | some status =>
    cases future with
    | fresh => simp [Wait.pollWithin, awaitWithin, Wait.poll, await_of_result h, h]
    | suspended =>
      by_cases hs : c.signal = .raised
      · simp [Wait.pollWithin, awaitWithin, poll_suspended_of_raised h hs, hs, h]
      · simp [Wait.pollWithin, poll_suspended_of_not_raised hs, hs]

theorem poll (hc : c.Coherent) (future : Wait) (waker : Waker) :
    (future.poll waker c).2.Coherent := by
  intro hs
  rw [hc.result_poll]
  cases h : c.result with
  | none =>
    rw [hc.poll_of_busy h] at hs
    cases hs
  | some status => simp

theorem exec (hc : c.Coherent) (call : Call) : (call.exec c).2.Coherent := by
  by_cases hcall : call = .arm
  · subst hcall
    rintro ⟨⟩
  · rcases Call.exec_of_ne_arm hcall c with hsame | ⟨-, status, hfinal, hraise⟩
    · rwa [hsame]
    · rw [hraise]
      exact fun _ => result_raise_ne_none hfinal

end Coherent

/-! ### Futures in a room -/

/-- A completion and the futures that wait for it, each under its name. -/
structure Room where
  completion : Completion := {}
  /-- The futures that are neither done nor dropped. -/
  futures : Nat → Option Wait := fun _ => none

namespace Room

/-- Something that happens to a completion or to one of its futures. -/
inductive Step
  | call (call : Call)
  /-- A new future comes, in the place of the one that had its name. -/
  | enter (name : Nat)
  | poll (name : Nat) (waker : Waker)
  /-- A future is dropped. -/
  | leave (name : Nat)
  deriving DecidableEq

/-- The name of the future that a step is about. -/
def Step.name? : Step → Option Nat
  | call _ => none
  | enter name => some name
  | poll name _ => some name
  | leave name => some name

/-- The room after a step.  Who is done or was never there cannot be polled. -/
def step (s : Room) : Step → Room
  | .call call => { s with completion := (call.exec s.completion).2 }
  | .enter name => { s with futures := Function.update s.futures name (some .fresh) }
  | .poll name waker =>
    match s.futures name with
    | none => s
    | some future =>
      { completion := (future.poll waker s.completion).2
        futures := Function.update s.futures name (future.poll waker s.completion).1.rest }
  | .leave name => { s with futures := Function.update s.futures name none }

/-- The room after some steps, from the beginning. -/
def run (steps : List Step) : Room := steps.foldl step {}

theorem run_concat (steps : List Step) (step : Step) :
    run (steps ++ [step]) = (run steps).step step := by
  simp [run]

theorem step_poll_of_none {s : Room} {name : Nat} (h : s.futures name = none) (waker : Waker) :
    s.step (.poll name waker) = s := by
  rw [step, h]

theorem step_poll_of_some {s : Room} {name : Nat} {future : Wait}
    (h : s.futures name = some future) (waker : Waker) :
    s.step (.poll name waker) =
      { completion := (future.poll waker s.completion).2
        futures := Function.update s.futures name (future.poll waker s.completion).1.rest } := by
  rw [step, h]

theorem futures_step_poll {s : Room} {name : Nat} {future : Wait}
    (h : s.futures name = some future) (waker : Waker) :
    (s.step (.poll name waker)).futures name = (future.poll waker s.completion).1.rest := by
  rw [step_poll_of_some h]
  exact Function.update_self ..

theorem coherent_step {s : Room} (h : s.completion.Coherent) (step : Step) :
    (s.step step).completion.Coherent := by
  cases step with
  | call call => exact h.exec call
  | enter name => exact h
  | poll name waker =>
    cases hf : s.futures name with
    | none => rwa [step_poll_of_none hf]
    | some future =>
      rw [step_poll_of_some hf]
      exact h.poll future waker
  | leave name => exact h

/-- A raised signal always tells of a result. -/
theorem coherent_run (steps : List Step) : (run steps).completion.Coherent := by
  induction steps using List.reverseRecOn with
  | nil => rintro ⟨⟩
  | append_singleton steps step ih =>
    rw [run_concat]
    exact coherent_step ih step

/-- What the futures do leaves the result alone. -/
theorem result_step {s : Room} (h : s.completion.Coherent) {step : Step}
    (hstep : ∀ call, step ≠ .call call) :
    (s.step step).completion.result = s.completion.result := by
  cases step with
  | call call => exact absurd rfl (hstep call)
  | enter name => rfl
  | poll name waker =>
    cases hf : s.futures name with
    | none => rw [step_poll_of_none hf]
    | some future =>
      rw [step_poll_of_some hf]
      exact h.result_poll future waker
  | leave name => rfl

/-- A step about one future leaves the others alone. -/
theorem futures_step {s : Room} {step : Step} {name : Nat} (h : step.name? ≠ some name) :
    (s.step step).futures name = s.futures name := by
  cases step with
  | call call => rfl
  | enter other => exact Function.update_of_ne (fun he => h (congrArg some he.symm)) ..
  | poll other waker =>
    cases hf : s.futures other with
    | none => rw [step_poll_of_none hf]
    | some future =>
      rw [step_poll_of_some hf]
      exact Function.update_of_ne (fun he => h (congrArg some he.symm)) ..
  | leave other => exact Function.update_of_ne (fun he => h (congrArg some he.symm)) ..

theorem futures_run_append {steps more : List Step} {name : Nat}
    (h : ∀ step ∈ more, step.name? ≠ some name) :
    (run (steps ++ more)).futures name = (run steps).futures name := by
  induction more using List.reverseRecOn with
  | nil => rw [List.append_nil]
  | append_singleton more step ih =>
    rw [← List.append_assoc, run_concat, futures_step (h step (by simp))]
    exact ih fun other hother => h other (by simp [hother])

/-- A future is suspended because it was before, or because it has just been polled. -/
theorem suspended_step {s : Room} {step : Step} {name : Nat}
    (h : (s.step step).futures name = some .suspended) :
    step.name? ≠ some name ∧ s.futures name = some .suspended ∨
      ∃ waker future, step = .poll name waker ∧ s.futures name = some future ∧
        (future.poll waker s.completion).1 = .pending .suspended := by
  by_cases hname : step.name? = some name
  · right
    cases step with
    | call call => cases hname
    | enter other =>
      obtain rfl := Option.some.inj hname
      simp [Room.step] at h
    | leave other =>
      obtain rfl := Option.some.inj hname
      simp [Room.step] at h
    | poll other waker =>
      obtain rfl := Option.some.inj hname
      cases hf : s.futures other with
      | none =>
        rw [step_poll_of_none hf, hf] at h
        cases h
      | some future =>
        rw [futures_step_poll hf, Poll.rest_eq_some_iff] at h
        exact ⟨waker, future, rfl, rfl, h⟩
  · rw [futures_step hname] at h
    exact .inl ⟨hname, h⟩

end Room

end Completion

end ElementHost
