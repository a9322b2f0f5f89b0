import ElementHost.Proofs.Alarm.Phases
import ElementHost.Proofs.Alarm.SingleTimer

/-!
# What a failure leaves behind

A registration asks the facility for a timer, if there is none, and then starts it.  Either may
fail, from every state of the alarm and by each of the three ways to ask for a registration.  The
job registered before, the phase and the mark of a start in flight are none the worse for it.  The
one thing that may be left behind is a timer that could be created and not be started; it is not
lost, for the next registration starts it.

* `Call.Fails`, a registration that came to nothing;
* `Call.Spares`, what it leaves alone, and `Call.Remnant`, all that it may leave behind;
* `Reuses`, that a timer is started by every registration until it is destroyed;
* `failure_harmless`, the law of every call in every course.
-/

namespace ElementHost.Alarm

variable {κ η φ : Type}

/-- The job that an expiry of the alarm would hand out. -/
def handsOut (alarm : Alarm κ η) : Option κ :=
  ((expire : StateT (Alarm κ η) Id (Option κ)).run alarm).1

/-- The alarm was asked for a registration and answered with an error. -/
def Call.Fails (call : Call κ η φ) : Prop :=
  ∃ reply, call.answer = .replied reply ∧ reply.isOk = false

/-- A call has left alone all that the next expiry depends on. -/
structure Call.Spares (call : Call κ η φ) (after : Alarm κ η) : Prop where
  job : after.job = call.before.job
  phase : after.phase = call.before.phase
  triggered : after.triggered = call.before.triggered
  handsOut : handsOut after = handsOut call.before

/-- All that a failed registration may leave behind. -/
inductive Call.Remnant (call : Call κ η φ) (after : Alarm κ η) : Prop
  /-- No timer was created, and nothing has changed. -/
  | nothing : (∀ action ∈ call.actions, action.created? = none) → after = call.before →
      Remnant call after
  /-- A timer was created that could not be started. -/
  | timer {hertz ticks : UInt32} {handle : η} {reason : φ} : call.before.timer = none →
      call.actions =
        [.rate hertz, .create call.before.config.timerName ticks (.ok handle),
          .start handle ticks (.error reason)] →
      after = { call.before with timer := some handle, created := call.before.created + 1 } →
      Remnant call after

/-! ### Failed registrations -/

theorem Call.Remnant.spares {call : Call κ η φ} {after : Alarm κ η} (h : call.Remnant after) :
    call.Spares after := by
  cases h with
  | nothing _ hafter =>
    subst hafter
    exact ⟨rfl, rfl, rfl, rfl⟩
  | timer _ _ hafter =>
    subst hafter
    exact ⟨rfl, rfl, rfl, rfl⟩

theorem Registers.remnant {call : Call κ η φ} {after : Alarm κ η} {job : κ} {delayMicros : UInt32}
    {e : Error} (h : Registers call.before job delayMicros call.actions (.error e) after) :
    call.Remnant after := by
  obtain ⟨actions, hactions⟩ : ∃ actions, call.actions = actions := ⟨_, rfl⟩
  rw [hactions] at h
  cases h with
  | uncreated =>
    refine .nothing ?_ rfl
    rw [hactions]
    simp [Action.created?]
  | unstarted reason hobtains =>
    cases hobtains with
    | kept =>
      refine .nothing ?_ rfl
      rw [hactions]
      simp [Action.created?]
    | created hnone => exact .timer hnone hactions rfl

theorem Operation.Effect.remnant {alarm after : Alarm κ η} {operation : Operation κ}
    {actions : List (Action κ η φ)} {answer : Answer κ}
    (h : operation.Effect alarm actions answer after)
    (hfails : Call.Fails { operation, before := alarm, actions, answer }) :
    Call.Remnant { operation, before := alarm, actions, answer } after := by
  obtain ⟨reply, hanswer, herror⟩ := hfails
  cases h with
  | @asked c _ given _ heffect =>
    obtain rfl : given = reply := Answer.replied.inj hanswer
    cases heffect with
    | registered hrequest =>
      simp [Command.isOk_reply hrequest, Except.isOk, Except.toBool] at herror
    | failed _ hregisters => exact hregisters.remnant
    | declined => cases c <;> cases herror
    | stopped | absent | destroyed | undestroyed => cases herror
  | expired => cases hanswer
  | settled | triggered =>
    cases hanswer
    cases herror

/-! ### Timers in place -/

/-- A registration starts the timer that there is. -/
theorem Registers.of_timer {alarm after : Alarm κ η} {job : κ} {delayMicros : UInt32}
    {actions : List (Action κ η φ)} {result : Except Error Arming} {handle : η}
    (h : Registers alarm job delayMicros actions result after)
    (htimer : alarm.timer = some handle) :
    after.timer = some handle ∧ ∃ hertz answer,
      actions = [.rate hertz, .start handle (ticksOfMicros delayMicros hertz) answer] := by
  have hkept {ticks : UInt32} {earlier : List (Action κ η φ)} {other : η} {obtained : Alarm κ η}
      (hobtains : Obtains alarm ticks earlier other obtained) :
      earlier = [] ∧ other = handle ∧ obtained.timer = some handle := by
    cases hobtains with
    | kept hother => exact ⟨rfl, Option.some.inj (hother.symm.trans htimer), htimer⟩
    | created hnone => cases hnone.symm.trans htimer
  cases h with
  | uncreated _ _ hnone => cases hnone.symm.trans htimer
  | @unstarted hertz _ _ _ reason hobtains =>
    obtain ⟨rfl, rfl, hafter⟩ := hkept hobtains
    exact ⟨hafter, hertz, .error reason, rfl⟩
  | @started hertz _ _ _ hobtains =>
    obtain ⟨rfl, rfl, hafter⟩ := hkept hobtains
    exact ⟨hafter, hertz, .ok (), rfl⟩

/-- A registration that is asked for starts the timer that there is. -/
theorem Operation.Effect.started_of_timer {alarm after : Alarm κ η} {c : Command κ}
    {actions : List (Action κ η φ)} {answer : Answer κ} {job : κ} {delayMicros : UInt32}
    {handle : η} (h : Operation.Effect alarm (.ask c) actions answer after)
    (hrequest : c.request? alarm = some (job, delayMicros)) (htimer : alarm.timer = some handle) :
    ∃ hertz started,
      actions = [.rate hertz, .start handle (ticksOfMicros delayMicros hertz) started] := by
  cases h with
  | asked heffect =>
    cases heffect with
    | registered hasked hregisters | failed hasked hregisters =>
      obtain ⟨rfl, rfl⟩ := Prod.mk.inj (Option.some.inj (hasked.symm.trans hrequest))
      exact (hregisters.of_timer htimer).2
    | declined hnone => cases hnone.symm.trans hrequest
    | stopped | absent | destroyed | undestroyed => cases hrequest

/-- A timer stays in place unless it is destroyed. -/
theorem Operation.Effect.timer_eq_some {alarm after : Alarm κ η} {operation : Operation κ}
    {actions : List (Action κ η φ)} {answer : Answer κ} {handle : η}
    (h : operation.Effect alarm actions answer after) (htimer : alarm.timer = some handle)
    (hdestroys : ¬ Call.Destroys { operation, before := alarm, actions, answer }) :
    after.timer = some handle := by
  cases h with
  | asked heffect =>
    cases heffect with
    | registered _ hregisters => simpa using (hregisters.of_timer htimer).1
    | failed _ hregisters => exact (hregisters.of_timer htimer).1
    | declined | stopped | absent | undestroyed => exact htimer
    | @destroyed other => exact absurd ⟨rfl, other, rfl⟩ hdestroys
  | expired | settled | triggered => exact htimer

/-- A destruction that fails changes nothing. -/
theorem Operation.Effect.eq_of_not_destroys {alarm after : Alarm κ η}
    {actions : List (Action κ η φ)} {answer : Answer κ}
    (h : Operation.Effect alarm (.ask .destroy) actions answer after)
    (hdestroys : ¬ Call.Destroys { operation := .ask .destroy, before := alarm, actions, answer }) :
    after = alarm := by
  cases h with
  | asked heffect =>
    cases heffect with
    | registered hrequest | failed hrequest => cases hrequest
    | declined | absent | undestroyed => rfl
    | @destroyed handle => exact absurd ⟨rfl, handle, rfl⟩ hdestroys

/-- Whatever is done after some operations, as long as it does not destroy the timer, the next
registration that is asked for starts `handle` and creates no timer. -/
def Reuses (b : Behaviour κ η φ) (config : Config) (operations : List (Operation κ)) (handle : η) :
    Prop :=
  ∀ more, ∃ later,
    (course b config (operations ++ more)).calls = (course b config operations).calls ++ later ∧
      ((∀ d ∈ later, ¬ d.Destroys) → ∀ (c : Command κ) (job : κ) (delayMicros : UInt32),
        c.request? (course b config (operations ++ more)).alarm = some (job, delayMicros) →
          ∃ hertz answer, (course b config (operations ++ more ++ [.ask c])).actions =
            (course b config (operations ++ more)).actions ++
              [.rate hertz, .start handle (ticksOfMicros delayMicros hertz) answer])

section Courses

variable (b : Behaviour κ η φ) (config : Config) {operations : List (Operation κ)} {handle : η}

theorem course_timer_eq_some (h : (course b config operations).alarm.timer = some handle)
    (more : List (Operation κ)) :
    ∃ later,
      (course b config (operations ++ more)).calls = (course b config operations).calls ++ later ∧
        ((∀ d ∈ later, ¬ d.Destroys) →
          (course b config (operations ++ more)).alarm.timer = some handle) := by
  induction more using List.reverseRecOn with
  | nil => exact ⟨[], by simp, fun _ => by simpa using h⟩
  | append_singleton more operation ih =>
    obtain ⟨later, hcalls, htimer⟩ := ih
    obtain ⟨actions, answer, after, hstep, heffect⟩ :=
      (course b config (operations ++ more)).exists_step_eq b operation
    let call : Call κ η φ :=
      { operation, before := (course b config (operations ++ more)).alarm, actions, answer }
    rw [← List.append_assoc, course_concat, hstep]
    refine ⟨later ++ [call], by simp [hcalls, call], ?_⟩
    intro hlater
    have hearlier : ∀ d ∈ later, ¬ d.Destroys := fun d hd => hlater d (by simp [hd])
    exact heffect.timer_eq_some (htimer hearlier) (hlater call (by simp))

theorem reuses_of_timer (h : (course b config operations).alarm.timer = some handle) :
    Reuses b config operations handle := by
  intro more
  obtain ⟨later, hcalls, htimer⟩ := course_timer_eq_some b config h more
  refine ⟨later, hcalls, ?_⟩
  intro hlater c job delayMicros hrequest
  obtain ⟨actions, answer, after, hstep, heffect⟩ :=
    (course b config (operations ++ more)).exists_step_eq b (.ask c)
  rw [course_concat, hstep, record_actions]
  obtain ⟨hertz, started, hactions⟩ := heffect.started_of_timer hrequest (htimer hlater)
  exact ⟨hertz, started, by rw [hactions]⟩

end Courses

/-- **Failures do no harm.**  Whatever the facility does, a registration that fails, by whichever
way it was asked for, leaves the job, the phase, the mark of a start in flight and what an expiry
would hand out as they were.  It may leave a timer that it created and could not start, and nothing
else; that timer, like every timer in place, is started by the next registration, which creates
none.  A destruction that fails changes nothing at all. -/
theorem failure_harmless (b : Behaviour κ η φ) (config : Config) (operations : List (Operation κ))
    (operation : Operation κ) :
    let s := course b config operations
    let s' := course b config (operations ++ [operation])
    ∃ call : Call κ η φ, call.operation = operation ∧ call.before = s.alarm ∧
      s'.calls = s.calls ++ [call] ∧ s'.actions = s.actions ++ call.actions ∧
      (call.Fails → call.Spares s'.alarm ∧ call.Remnant s'.alarm) ∧
      (operation = .ask .destroy → ¬ call.Destroys → s'.alarm = s.alarm) ∧
      ∀ handle, s'.alarm.timer = some handle →
        Reuses b config (operations ++ [operation]) handle := by
  intro s s'
  obtain ⟨actions, answer, after, hstep, heffect⟩ := s.exists_step_eq b operation
  have hs' : s' = s.record operation actions answer after := (course_concat ..).trans hstep
  refine ⟨{ operation, before := s.alarm, actions, answer }, rfl, rfl, ?_, ?_, ?_, ?_, ?_⟩
  · rw [hs', record_calls]
  · rw [hs', record_actions]
  · intro hfails
    have hremnant := heffect.remnant hfails
    rw [hs', record_alarm]
    exact ⟨hremnant.spares, hremnant⟩
  · rintro rfl hdestroys
    rw [hs', record_alarm]
    exact heffect.eq_of_not_destroys hdestroys
  · intro handle htimer
    exact reuses_of_timer b config htimer

end ElementHost.Alarm
