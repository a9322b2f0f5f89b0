import ElementHost.Completion.Request
import ElementHost.Proofs.Moments

/-!
# One status for each operation

A completion is armed again and again, and in between any number of publishers offer it a status:
the link, a timeout, anybody.  The first final status offered after an arming is the one that
counts, and the busy status is never final.

* `Call`, `Call.exec`, `after`, a completion after some calls;
* `Pending`, `Resolved`, what the calls say about the operation in flight;
* `single_assignment`, that the completion says the same, and which publications it accepts.
-/

namespace ElementHost.Completion

/-- Something to do with a completion. -/
inductive Call
  | arm
  /-- A status, be it the one of an operation or the one that ends a stuck operation. -/
  | publish (status : Status)
  /-- The status of a link's report. -/
  | publishOutcome (outcome : Link.Outcome)
  deriving DecidableEq

namespace Call

/-- The status that a call publishes. -/
def status? : Call → Option Status
  | arm => none
  | publish status => some status
  | publishOutcome outcome => some (Status.ofOutcome outcome)

/-- Makes a call.  The answer to a publication is whether it was accepted. -/
def perform : Call → StateM Completion (Option Bool)
  | arm => do
    Request.armCompletion
    return none
  | publish status => return some (← publishStatus status)
  | publishOutcome outcome => return some (← publishStatus (Status.ofOutcome outcome))

/-- The answer to a call, and the completion after it. -/
def exec (call : Call) (c : Completion) : Option Bool × Completion := call.perform.run c

theorem exec_arm (c : Completion) : arm.exec c = (none, c.arm) := rfl

/-- All publications are alike. -/
theorem exec_of_status {call : Call} {status : Status} (h : call.status? = some status)
    (c : Completion) : call.exec c = (some (c.publish status).1, (c.publish status).2) := by
  cases call <;> cases h <;> rfl

theorem status?_eq_none_iff (call : Call) : call.status? = none ↔ call = .arm := by
  cases call <;> simp [status?]

theorem ne_arm {call : Call} {status : Status} (h : call.status? = some status) :
    call ≠ .arm := by
  rintro rfl
  cases h

end Call

/-- A completion after some calls, from the beginning. -/
def after (calls : List Call) : Completion := calls.foldl (fun c call => (call.exec c).2) {}

theorem after_concat (calls : List Call) (call : Call) :
    after (calls ++ [call]) = (call.exec (after calls)).2 := by
  simp [after]

/-! ### What the calls say -/

/-- The completion was armed, and since then nothing but the busy status was published. -/
def Pending (calls : List Call) : Prop :=
  ∃ before since, calls = before ++ .arm :: since ∧
    ∀ call ∈ since, call.status? = some Status.busy

/-- This is the first final status that was published since the completion was armed last; or the
completion was never armed, and this is the status it starts with. -/
def Resolved (status : Status) (calls : List Call) : Prop :=
  (∃ earlier call later, calls = earlier ++ call :: later ∧ Pending earlier ∧
    call.status? = some status ∧ status ≠ Status.busy ∧ .arm ∉ later) ∨
    .arm ∉ calls ∧ status = Status.success

theorem pending_concat_iff (calls : List Call) (call : Call) :
    Pending (calls ++ [call]) ↔ call = .arm ∨ Pending calls ∧ call.status? = some Status.busy := by
  constructor
  · rintro ⟨before, since, h, hs⟩
    rcases (concat_eq_split_iff ..).1 h with ⟨-, -, hcall⟩ | ⟨between, rfl, rfl⟩
    · exact .inl hcall.symm
    · refine .inr ⟨⟨before, between, rfl, ?_⟩, hs call (by simp)⟩
      intro d hd
      exact hs d (List.mem_append_left _ hd)
  · rintro (rfl | ⟨⟨before, since, rfl, hs⟩, hcall⟩)
    · exact ⟨calls, [], rfl, by simp⟩
    · refine ⟨before, since ++ [call], by simp, ?_⟩
      intro d hd
      rcases List.mem_append.1 hd with hd | hd
      · exact hs d hd
      · rw [List.mem_singleton.1 hd]
        exact hcall

theorem resolved_concat_iff (status : Status) (calls : List Call) (call : Call) :
    Resolved status (calls ++ [call]) ↔ call ≠ .arm ∧
      (Resolved status calls ∨
        Pending calls ∧ call.status? = some status ∧ status ≠ Status.busy) := by
  constructor
  · rintro (⟨earlier, d, later, h, hp, hd, hfinal, hlater⟩ | ⟨hnever, hstatus⟩)
    · rcases (concat_eq_split_iff ..).1 h with ⟨-, rfl, rfl⟩ | ⟨between, rfl, rfl⟩
      · exact ⟨Call.ne_arm hd, .inr ⟨hp, hd, hfinal⟩⟩
      · simp only [List.mem_append, List.mem_singleton, not_or] at hlater
        exact ⟨Ne.symm hlater.2, .inl (.inl ⟨earlier, d, between, rfl, hp, hd, hfinal, hlater.1⟩)⟩
    · simp only [List.mem_append, List.mem_singleton, not_or] at hnever
      exact ⟨Ne.symm hnever.2, .inl (.inr ⟨hnever.1, hstatus⟩)⟩
  · rintro ⟨hcall, (⟨earlier, d, later, rfl, hp, hd, hfinal, hlater⟩ | ⟨hnever, hstatus⟩) |
      ⟨hp, hstatus, hfinal⟩⟩
    · refine .inl ⟨earlier, d, later ++ [call], by simp, hp, hd, hfinal, ?_⟩
      simpa using ⟨hlater, Ne.symm hcall⟩
    · exact .inr ⟨by simpa using ⟨hnever, Ne.symm hcall⟩, hstatus⟩
    · exact .inl ⟨calls, call, [], rfl, hp, hstatus, hfinal, by simp⟩

/-! ### What the completion says -/

theorem publish_accepted_iff (status : Status) (c : Completion) :
    (c.publish status).1 = true ↔ status ≠ Status.busy ∧ c.status = Status.busy := by
  unfold publish
  split <;> simp_all

theorem status_publish (status : Status) (c : Completion) :
    (c.publish status).2.status =
      if status ≠ Status.busy ∧ c.status = Status.busy then status else c.status := by
  unfold publish
  split <;> rfl

/-- The operation stays in flight as long as nothing final is published. -/
theorem status_publish_eq_busy_iff (status : Status) (c : Completion) :
    (c.publish status).2.status = Status.busy ↔ c.status = Status.busy ∧ status = Status.busy := by
  rw [status_publish]
  by_cases hs : status = Status.busy
  · simp [hs]
  · by_cases hc : c.status = Status.busy <;> simp [hs, hc]

/-- A final status is there already, or it is the one published while the operation is in
flight. -/
theorem status_publish_eq_iff {final : Status} (hfinal : final ≠ Status.busy) (status : Status)
    (c : Completion) :
    (c.publish status).2.status = final ↔
      c.status = final ∨ c.status = Status.busy ∧ status = final := by
  rw [status_publish]
  by_cases hc : c.status = Status.busy
  · by_cases hs : status = Status.busy
    · simp [hs, hc, Ne.symm hfinal]
    · simp [hs, hc, Ne.symm hfinal]
  · simp [hc]

theorem status_after_eq_busy_iff (calls : List Call) :
    (after calls).status = Status.busy ↔ Pending calls := by
  induction calls using List.reverseRecOn with
  | nil => simp [after, Pending, Status.success, Status.busy]
  | append_singleton calls call ih =>
    rw [after_concat, pending_concat_iff, ← ih]
    cases hcall : call.status? with
    | none =>
      obtain rfl := (Call.status?_eq_none_iff call).1 hcall
      simp [Call.exec_arm, arm]
    | some status =>
      have hne := Call.ne_arm hcall
      rw [Call.exec_of_status hcall]
      show (publish status (after calls)).2.status = _ ↔ _
      rw [status_publish_eq_busy_iff]
      simp [hne]

theorem status_after_eq_iff {final : Status} (hfinal : final ≠ Status.busy) (calls : List Call) :
    (after calls).status = final ↔ Resolved final calls := by
  induction calls using List.reverseRecOn with
  | nil => simp [after, Resolved, eq_comm]
  | append_singleton calls call ih =>
    rw [after_concat, resolved_concat_iff, ← ih, ← status_after_eq_busy_iff]
    cases hcall : call.status? with
    | none =>
      obtain rfl := (Call.status?_eq_none_iff call).1 hcall
      simp [Call.exec_arm, arm, Ne.symm hfinal]
    | some status =>
      have hne := Call.ne_arm hcall
      rw [Call.exec_of_status hcall]
      show (publish status (after calls)).2.status = _ ↔ _
      rw [status_publish_eq_iff hfinal]
      simp [hne, hfinal]

/-- No result is the busy status. -/
theorem not_resolved_busy (calls : List Call) : ¬ Resolved Status.busy calls := by
  rintro (⟨_, _, _, -, -, -, hfinal, -⟩ | ⟨-, hstatus⟩)
  · exact hfinal rfl
  · cases hstatus

theorem result_eq_some_iff (c : Completion) (status : Status) :
    c.result = some status ↔ c.status = status ∧ status ≠ Status.busy := by
  unfold result
  split
  · next h =>
    rw [h]
    simp [eq_comm]
  · next h =>
    simp only [Option.some.injEq]
    exact ⟨fun hs => ⟨hs, hs ▸ h⟩, And.left⟩

/-- **The status is assigned once for each operation.**  After any calls, a completion has no
result exactly if it was armed and nothing final was published since; otherwise its result is the
first final status that was published since it was armed last, or the success it starts with.  The
next publication is accepted exactly if it is a final one and there is no result yet; a publication
that is refused changes nothing. -/
theorem single_assignment (calls : List Call) :
    ((after calls).result = none ↔ Pending calls) ∧
      (∀ status, (after calls).result = some status ↔ Resolved status calls) ∧
      ∀ call status, call.status? = some status →
        ∃ accepted, call.exec (after calls) = (some accepted, after (calls ++ [call])) ∧
          (accepted = true ↔ Pending calls ∧ status ≠ Status.busy) ∧
          (accepted = false → after (calls ++ [call]) = after calls) := by
  refine ⟨?_, ?_, ?_⟩
  · rw [result_eq_none_iff, status_after_eq_busy_iff]
  · intro status
    rw [result_eq_some_iff]
    by_cases hfinal : status = Status.busy
    · subst hfinal
      simp [not_resolved_busy]
    · simp [hfinal, status_after_eq_iff hfinal]
  · intro call status hcall
    have hexec := Call.exec_of_status hcall (after calls)
    rw [after_concat, hexec]
    refine ⟨((after calls).publish status).1, rfl, ?_, publish_of_refused⟩
    rw [publish_accepted_iff, status_after_eq_busy_iff, and_comm]

/-- A status before the arming and the busy status do not count, nor does any that comes after the
first final one. -/
example : after [.publish 0x0107, .arm, .publish Status.busy, .publishOutcome .failure,
    .publish Status.timeout] = { status := Status.linkFailure, signal := .raised } := by
  decide

end ElementHost.Completion
