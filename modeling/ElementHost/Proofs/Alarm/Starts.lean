import ElementHost.Proofs.Alarm.Facility
import ElementHost.Proofs.Alarm.Phases

/-!
# Starts that are declined

An alarm that was started is marked, and it declines to be started again until it is stopped.  The
mark and the phase are kept by different operations: an expiry or a destruction ends the wait that
a start began, and leaves the mark.  So a start may be declined although nobody waits for anything.

* `Call.Launches`, `StartStands`, a start that was not stopped since;
* `Course.marked_iff`, when an alarm is marked;
* `Course.Declines`, a start that is declined;
* `declines_iff`, when that happens, and whether a job then waits or is being dispatched, with
  `not_declinesInFlight_fired`.
-/

namespace ElementHost.Alarm

variable {κ η φ : Type}

/-- A registration that was asked for by a start. -/
def Call.Launches (call : Call κ η φ) : Prop :=
  call.registered?.isSome ∧ ∀ job delayMicros, call.operation ≠ .ask (.register job delayMicros)

/-- A start has registered a job, and the alarm was not stopped since. -/
def StartStands (calls : List (Call κ η φ)) : Prop :=
  Since Call.Launches (fun call => call.operation ≠ .ask .stop) calls

theorem startStands_concat_iff (calls : List (Call κ η φ)) (call : Call κ η φ) :
    StartStands (calls ++ [call]) ↔
      call.Launches ∨ StartStands calls ∧ call.operation ≠ .ask .stop :=
  since_concat_iff ..

theorem Registers.triggered_eq {alarm after : Alarm κ η} {job : κ} {delayMicros : UInt32}
    {actions : List (Action κ η φ)} {result : Except Error Arming}
    (h : Registers alarm job delayMicros actions result after) :
    after.triggered = alarm.triggered := by
  cases h with
  | uncreated => rfl
  | unstarted _ hobtains | started hobtains => cases hobtains <;> rfl

/-- Only a start marks an alarm, and only a stop takes the mark away. -/
theorem Operation.Effect.marked_iff {alarm after : Alarm κ η} {operation : Operation κ}
    {actions : List (Action κ η φ)} {answer : Answer κ}
    (h : operation.Effect alarm actions answer after) :
    let call : Call κ η φ := { operation, before := alarm, actions, answer }
    after.triggered = true ↔
      call.Launches ∨ alarm.triggered = true ∧ call.operation ≠ .ask .stop := by
  intro call
  cases h with
  | @asked c _ reply _ heffect =>
    cases heffect with
    | @registered _ _ _ _ arming _ hrequest hregisters =>
      have hregistered : call.registered? = some _ := Call.registered?_of_ok hrequest _ _
      cases c with
      | create | start =>
        have hlaunches : call.Launches := by
          refine ⟨by simp [hregistered], ?_⟩
          rintro _ _ ⟨⟩
        simp [Command.conclude, hlaunches]
      | register job delayMicros =>
        have hlaunches : ¬ call.Launches := fun hlaunches => hlaunches.2 job delayMicros rfl
        simp [Command.conclude, hlaunches, hregisters.triggered_eq, call]
      | stop | destroy => cases hrequest
    | failed hrequest hregisters =>
      have hregistered : call.registered? = none := Call.registered?_of_error hrequest _ _
      have hlaunches : ¬ call.Launches := by simp [Call.Launches, hregistered]
      have hstop : c ≠ .stop := by
        rintro rfl
        cases hrequest
      simp [call, hlaunches, hregisters.triggered_eq, hstop]
    | declined hrequest hstop =>
      have hlaunches : ¬ call.Launches := by
        simp [call, Call.Launches, Call.registered?, hrequest]
      simp [call, hlaunches, hstop]
    | stopped | absent | destroyed | undestroyed =>
      have hlaunches : ¬ call.Launches := by
        rintro ⟨⟨⟩, -⟩
      simp [call, hlaunches]
  | expired | settled | triggered =>
    have hlaunches : ¬ call.Launches := by
      rintro ⟨⟨⟩, -⟩
    simp [call, hlaunches]

/-- An alarm is marked exactly if a start has registered a job and no stop came since. -/
theorem Course.marked_iff (b : Behaviour κ η φ) (config : Config)
    (operations : List (Operation κ)) :
    (course b config operations).alarm.triggered = true ↔
      StartStands (course b config operations).calls := by
  refine course_induction b (P := fun s => s.alarm.triggered = true ↔ StartStands s.calls) ?_ ?_
    operations
  · exact iff_of_false nofun (not_since_nil _ _)
  · intro s operation actions answer after hs h
    rw [record_alarm, record_calls, startStands_concat_iff, ← hs]
    exact h.marked_iff

/-- The alarm would decline to be started for `job`: it would answer that a start is in flight. -/
def Course.Declines (b : Behaviour κ η φ) (s : Course κ η φ) (job : κ) : Prop :=
  (((start b.timers job).run s.alarm).run s.actions).run.1.1 = .ok none

theorem Course.declines_iff_marked (b : Behaviour κ η φ) (s : Course κ η φ) (job : κ) :
    s.Declines b job ↔ s.alarm.triggered = true := by
  cases hmarked : s.alarm.triggered with
  | true => simp [Course.Declines, start, hmarked]
  | false =>
    obtain ⟨actions, result, after, hrun, -⟩ :=
      run_register b job s.alarm.config.delayMicros s.alarm s.actions
    have hnone : result.map some ≠ .ok none := by
      cases result <;> simp [Except.map]
    simp [Course.Declines, run_start b.timers hmarked, hrun, hnone]

/-- **When a start is declined.**  A start is declined exactly if an earlier one has registered a
job and was not stopped since.  That says nothing about what goes on: a job then waits or is being
dispatched exactly if the registration of the job registered last still stands, or a dispatch
does. -/
theorem declines_iff (b : Behaviour κ η φ) (config : Config) (operations : List (Operation κ))
    (job : κ) :
    let s := course b config operations
    (s.Declines b job ↔ StartStands s.calls) ∧
      (s.alarm.phase = .armed ∨ s.alarm.phase = .fired ↔
        RegistrationStands s.calls ∨ DispatchStands s.calls) := by
  intro s
  have hs : s.Sound := Course.sound b config operations
  refine ⟨?_, ?_⟩
  · rw [Course.declines_iff_marked]
    exact Course.marked_iff b config operations
  · rw [hs.armed]
    exact or_congr Iff.rfl (Course.fired_iff b config operations)

/-- A start is declined only while a job waits or is being dispatched. -/
def Behaviour.DeclinesInFlight (b : Behaviour κ η φ) : Prop :=
  ∀ config operations job, (course b config operations).Declines b job →
    (course b config operations).alarm.phase = .armed ∨
      (course b config operations).alarm.phase = .fired

/-- Once its job has been run, an alarm that was started is idle and declines to be started, even
if no call of the facility ever fails. -/
theorem not_declinesInFlight_fired :
    ¬ (numbered fun _ => false : Facility Nat Nat Unit).toBehaviour.DeclinesInFlight := by
  intro h
  have hdeclines : (course (numbered fun _ => false : Facility Nat Nat Unit).toBehaviour {}
      [.ask (.start 1), .trigger]).Declines (numbered fun _ => false).toBehaviour 2 := by
    rw [Course.declines_iff_marked]
    decide +kernel
  rcases h {} [.ask (.start 1), .trigger] 2 hdeclines with harmed | hfired
  · revert harmed
    decide +kernel
  · revert hfired
    decide +kernel

end ElementHost.Alarm
