import ElementHost.Proofs.Alarm.Course

/-!
# What the phase of an alarm says

The records of a course tell which job was registered last and whether its registration, or the
dispatch of the job, still stands.  The alarm knows this: the one is its job, the other its phase.

* `Call.registered?`, `lastRegistered`, `RegistrationStands`, `DispatchStands`, what the records
  say;
* `Call.Outcome`, what an operation does to the alarm's job, timer and phase, with
  `Operation.Effect.outcome`;
* `Call.Tells`, what an operation gives away of them, with `Operation.Effect.tells`;
* `Course.Sound`, that an alarm knows, and `phase_sound`, the law of every course;
* `Course.fired_iff`, when an alarm has fired.
-/

namespace ElementHost.Alarm

variable {κ η φ : Type}

/-- What a registration told about the job before it. -/
def Reply.arming? : Reply → Option Arming
  | registered (.ok arming) => some arming
  | started (.ok arming) => arming
  | _ => none

namespace Call

/-- The job that a call has registered. -/
def registered? (call : Call κ η φ) : Option κ :=
  match call.operation, call.answer with
  | .ask c, .replied reply => if reply.isOk then (c.request? call.before).map Prod.fst else none
  | _, _ => none

/-- An expiry, be it that the job was handed out or that it was run. -/
def Expires (call : Call κ η φ) : Prop := call.operation = .expire ∨ call.operation = .trigger

/-- The timer was destroyed: it was stopped and deleted, both with success. -/
def Destroys (call : Call κ η φ) : Prop :=
  call.operation = .ask .destroy ∧
    ∃ handle, call.actions = [.stop handle (.ok ()), .delete handle (.ok ())]

/-- What a call gives away, if the job registered last is `last` and its registration stands or
not. -/
structure Tells (call : Call κ η φ) (last : Option κ) (stands : Prop) : Prop where
  expire : call.operation = .expire → call.answer = .handedOut last
  trigger : call.operation = .trigger → call.actions = last.toList.map .run
  arming : ∀ reply arming, call.answer = .replied reply → reply.arming? = some arming →
    (arming = .replaced ↔ stands)

/-- What a call does to the alarm. -/
inductive Outcome (call : Call κ η φ) (after : Alarm κ η) : Prop
  | registers (job : κ) : call.registered? = some job → after.job = some job →
      after.phase = .armed → after.timer.isSome → Outcome call after
  | ends : call.registered? = none → call.Expires ∨ call.Destroys → after.job = call.before.job →
      (after.phase = .idle ∨ after.phase = .fired ∧ call.before.job.isSome) → Outcome call after
  | keeps : call.registered? = none → ¬ call.Expires → ¬ call.Destroys →
      after.job = call.before.job →
      (after.phase = call.before.phase ∨ after.phase = .idle ∧ call.before.phase = .fired) →
      (call.before.timer.isSome → after.timer.isSome) → Outcome call after

end Call

/-- The job that was registered last. -/
def lastRegistered (calls : List (Call κ η φ)) : Option κ :=
  calls.reverse.findSome? Call.registered?

theorem lastRegistered_concat (calls : List (Call κ η φ)) (call : Call κ η φ) :
    lastRegistered (calls ++ [call]) = call.registered?.or (lastRegistered calls) := by
  cases h : call.registered? with
  | none => simp [lastRegistered, h]
  | some job => simp [lastRegistered, h]

/-- A job was registered, and the last registration was followed neither by an expiry nor by the end
of the timer. -/
def RegistrationStands (calls : List (Call κ η φ)) : Prop :=
  Since (fun call => call.registered?.isSome)
    (fun call => call.registered? = none ∧ ¬ call.Expires ∧ ¬ call.Destroys) calls

theorem registrationStands_concat_iff (calls : List (Call κ η φ)) (call : Call κ η φ) :
    RegistrationStands (calls ++ [call]) ↔ call.registered?.isSome ∨
      RegistrationStands calls ∧ call.registered? = none ∧ ¬ call.Expires ∧ ¬ call.Destroys :=
  since_concat_iff ..

/-- A job was handed out by an expiry. -/
def Call.HandsOut (call : Call κ η φ) : Prop :=
  call.operation = .expire ∧ call.before.job.isSome

/-- A call that neither registers a job nor ends a dispatch or the timer. -/
def Call.Idles (call : Call κ η φ) : Prop :=
  call.registered? = none ∧ ¬ call.Destroys ∧ call.operation ≠ .settle ∧ call.operation ≠ .trigger

/-- A job was handed out, and since then its dispatch was not ended, no job was registered and the
timer was not destroyed. -/
def DispatchStands (calls : List (Call κ η φ)) : Prop := Since Call.HandsOut Call.Idles calls

theorem dispatchStands_concat_iff (calls : List (Call κ η φ)) (call : Call κ η φ) :
    DispatchStands (calls ++ [call]) ↔ call.HandsOut ∨ DispatchStands calls ∧ call.Idles :=
  since_concat_iff ..

/-! ### Single operations -/

/-- The reply to a registration shows whether it was a success. -/
theorem Command.isOk_reply {c : Command κ} {alarm : Alarm κ η} {request : κ × UInt32}
    (h : c.request? alarm = some request) (result : Except Error Arming) :
    (c.reply result).isOk = result.isOk := by
  cases c with
  | create | start | register => cases result <;> rfl
  | stop | destroy => cases h

section Registered

variable {c : Command κ} {alarm : Alarm κ η} {job : κ} {delayMicros : UInt32}
  (h : c.request? alarm = some (job, delayMicros)) (actions : List (Action κ η φ))
include h

/-- The record of a registration that was a success tells its job. -/
theorem Call.registered?_of_ok (arming : Arming) :
    registered? { operation := .ask c, before := alarm, actions
                  answer := .replied (c.reply (.ok arming)) } = some job := by
  simp [registered?, h, Command.isOk_reply h, Except.isOk, Except.toBool]

/-- The record of one that failed tells none. -/
theorem Call.registered?_of_error (e : Error) :
    registered? { operation := .ask c, before := alarm, actions
                  answer := .replied (c.reply (.error e)) } = none := by
  simp [registered?, Command.isOk_reply h, Except.isOk, Except.toBool]

end Registered

/-- The arming in the reply to a registration is the one it came to. -/
theorem Command.arming?_reply (c : Command κ) (result : Except Error Arming) (arming : Arming)
    (h : (c.reply result).arming? = some arming) : result = .ok arming := by
  cases c with
  | create | stop | destroy => cases h
  | start | register =>
    cases result with
    | error => cases h
    | ok => exact congrArg Except.ok (Option.some.inj h)

theorem Registers.ok {alarm after : Alarm κ η} {job : κ} {delayMicros : UInt32}
    {actions : List (Action κ η φ)} {arming : Arming}
    (h : Registers alarm job delayMicros actions (.ok arming) after) :
    after.job = some job ∧ after.phase = .armed ∧ after.timer.isSome ∧
      (arming = .replaced ↔ alarm.phase = .armed) := by
  cases h with
  | started hobtains =>
    refine ⟨rfl, rfl, by simp [hobtains.after.1], ?_⟩
    split <;> simp [*]

/-- A registration that fails may leave a timer behind that there was not before, no more. -/
theorem Registers.error {alarm after : Alarm κ η} {job : κ} {delayMicros : UInt32}
    {actions : List (Action κ η φ)} {e : Error}
    (h : Registers alarm job delayMicros actions (.error e) after) :
    after.job = alarm.job ∧ after.phase = alarm.phase ∧
      (alarm.timer.isSome → after.timer.isSome) := by
  cases h with
  | uncreated => exact ⟨rfl, rfl, id⟩
  | unstarted reason hobtains =>
    obtain ⟨htimer, hjob, hphase⟩ := hobtains.after
    exact ⟨hjob, hphase, by simp [htimer]⟩

/-- What does not end a registration and leaves the alarm's phase alone keeps the registration. -/
theorem Call.Outcome.of_eq {c : Command κ} {alarm after : Alarm κ η} {actions : List (Action κ η φ)}
    {reply : Reply} (hregistered : reply.isOk → c.request? alarm = none)
    (hdestroys : c = .destroy →
      ¬ ∃ handle, actions = [.stop handle (.ok ()), .delete handle (.ok ())])
    (hjob : after.job = alarm.job) (hphase : after.phase = alarm.phase)
    (htimer : alarm.timer.isSome → after.timer.isSome) :
    Outcome { operation := .ask c, before := alarm, actions, answer := .replied reply } after := by
  refine .keeps ?_ ?_ ?_ hjob (.inl hphase) htimer
  · simpa [registered?] using hregistered
  · simp [Expires]
  · rintro ⟨hc, h⟩
    exact hdestroys (Operation.ask.inj hc) h

theorem Command.Effect.outcome {alarm after : Alarm κ η} {c : Command κ}
    {actions : List (Action κ η φ)} {reply : Reply} (h : c.Effect alarm actions reply after) :
    Call.Outcome { operation := .ask c, before := alarm, actions, answer := .replied reply }
      after := by
  cases h with
  | @registered _ job _ _ _ _ hrequest hregisters =>
    obtain ⟨hjob, hphase, htimer, -⟩ := hregisters.ok
    exact .registers job (Call.registered?_of_ok hrequest _ _) (by simpa using hjob)
      (by simpa using hphase) (by simpa using htimer)
  | failed hrequest hregisters =>
    obtain ⟨hjob, hphase, htimer⟩ := hregisters.error
    refine .of_eq ?_ ?_ hjob hphase htimer
    · simp [isOk_reply hrequest, Except.isOk, Except.toBool]
    · rintro rfl
      cases hrequest
  | declined hrequest _ hdestroy =>
    exact .of_eq (fun _ => hrequest) (fun hc => absurd hc hdestroy) rfl rfl id
  | stopped => exact .of_eq (fun _ => rfl) (by simp) rfl rfl id
  | absent => exact .of_eq (fun _ => rfl) (by simp) rfl rfl id
  | @destroyed handle =>
    exact .ends rfl (.inr ⟨rfl, handle, rfl⟩) rfl (.inl rfl)
  | undestroyed stopped deleted _ hfails =>
    refine .of_eq (fun _ => rfl) ?_ rfl rfl id
    rintro - ⟨handle, h⟩
    obtain ⟨⟨-, rfl⟩, -, rfl⟩ : (_ ∧ stopped = .ok ()) ∧ _ ∧ deleted = .ok () := by simpa using h
    cases hfails

theorem Operation.Effect.outcome {alarm after : Alarm κ η} {operation : Operation κ}
    {actions : List (Action κ η φ)} {answer : Answer κ}
    (h : operation.Effect alarm actions answer after) :
    Call.Outcome { operation, before := alarm, actions, answer } after := by
  cases h with
  | asked heffect => exact heffect.outcome
  | expired =>
    refine .ends rfl (.inl (.inl rfl)) rfl ?_
    cases alarm.job with
    | none => exact .inl rfl
    | some => exact .inr ⟨rfl, rfl⟩
  | settled =>
    refine .keeps rfl (by simp [Call.Expires]) (by simp [Call.Destroys]) rfl ?_ id
    by_cases hfired : alarm.phase = .fired <;> simp [hfired]
  | triggered => exact .ends rfl (.inl (.inr rfl)) rfl (.inl rfl)

theorem Operation.Effect.tells {alarm after : Alarm κ η} {operation : Operation κ}
    {actions : List (Action κ η φ)} {answer : Answer κ}
    (h : operation.Effect alarm actions answer after) :
    Call.Tells { operation, before := alarm, actions, answer } alarm.job
      (alarm.phase = .armed) := by
  cases h with
  | @asked c _ reply _ heffect =>
    refine ⟨nofun, nofun, ?_⟩
    rintro _ arming ⟨⟩ harming
    cases heffect with
    | registered _ hregisters =>
      obtain rfl := Except.ok.inj (c.arming?_reply _ _ harming)
      exact hregisters.ok.2.2.2
    | failed => cases c.arming?_reply _ _ harming
    | declined => cases c <;> cases harming
    | stopped | absent | destroyed | undestroyed => cases harming
  | expired => exact ⟨fun _ => rfl, nofun, nofun⟩
  | settled =>
    refine ⟨nofun, nofun, ?_⟩
    rintro _ arming ⟨⟩ ⟨⟩
  | triggered =>
    refine ⟨nofun, fun _ => rfl, ?_⟩
    rintro _ arming ⟨⟩ ⟨⟩

/-- A command arms the alarm by a registration, makes it idle by a destruction, and leaves its phase
alone otherwise. -/
theorem Command.Effect.phase_trichotomy {alarm after : Alarm κ η} {c : Command κ}
    {actions : List (Action κ η φ)} {reply : Reply} (h : c.Effect alarm actions reply after) :
    let call : Call κ η φ :=
      { operation := .ask c, before := alarm, actions, answer := .replied reply }
    call.registered?.isSome ∧ after.phase = .armed ∨ call.Destroys ∧ after.phase = .idle ∨
      call.registered? = none ∧ ¬ call.Destroys ∧ after.phase = alarm.phase := by
  intro call
  cases h with
  | registered hrequest hregisters =>
    have hregistered : call.registered? = some _ := Call.registered?_of_ok hrequest _ _
    exact .inl ⟨by simp [hregistered], by simpa using hregisters.ok.2.1⟩
  | @destroyed handle => exact .inr (.inl ⟨⟨rfl, handle, rfl⟩, rfl⟩)
  | failed hrequest hregisters =>
    refine .inr (.inr ⟨Call.registered?_of_error hrequest _ _, ?_, hregisters.error.2.1⟩)
    rintro ⟨⟨⟩, -⟩
    cases hrequest
  | declined hrequest _ hdestroy =>
    refine .inr (.inr ⟨by simp [call, Call.registered?, hrequest], ?_, rfl⟩)
    rintro ⟨hc, -⟩
    exact hdestroy (Operation.ask.inj hc)
  | stopped =>
    refine .inr (.inr ⟨rfl, ?_, rfl⟩)
    rintro ⟨⟨⟩, -⟩
  | absent =>
    refine .inr (.inr ⟨rfl, ?_, rfl⟩)
    rintro ⟨-, handle, ⟨⟩⟩
  | undestroyed stopped deleted _ hfails =>
    refine .inr (.inr ⟨rfl, ?_, rfl⟩)
    rintro ⟨-, handle, ⟨⟩⟩
    cases hfails

/-- An alarm that has fired has just handed out its job, or was fired before. -/
theorem Operation.Effect.fired_iff {alarm after : Alarm κ η} {operation : Operation κ}
    {actions : List (Action κ η φ)} {answer : Answer κ}
    (h : operation.Effect alarm actions answer after)
    (hstored : alarm.phase = .fired → alarm.job.isSome) :
    let call : Call κ η φ := { operation, before := alarm, actions, answer }
    after.phase = .fired ↔ call.HandsOut ∨ alarm.phase = .fired ∧ call.Idles := by
  intro call
  cases h with
  | asked heffect =>
    have hout : ¬ call.HandsOut := nofun
    have hkinds : call.operation ≠ .settle ∧ call.operation ≠ .trigger := ⟨nofun, nofun⟩
    rcases heffect.phase_trichotomy with ⟨hregistered, hphase⟩ | ⟨hdestroys, hphase⟩ |
      ⟨hregistered, hdestroys, hphase⟩
    · have hidles : ¬ call.Idles := fun hidles => by simp [call, hidles.1] at hregistered
      simp [hphase, hout, hidles]
    · have hidles : ¬ call.Idles := fun hidles => hidles.2.1 hdestroys
      simp [hphase, hout, hidles]
    · have hidles : call.Idles := ⟨hregistered, hdestroys, hkinds⟩
      simp [hphase, hout, hidles]
  | expired =>
    cases hjob : alarm.job with
    | none =>
      have hunfired : alarm.phase ≠ .fired := by
        intro hfired
        have hsome := hstored hfired
        rw [hjob] at hsome
        cases hsome
      simp [call, Call.HandsOut, hjob, hunfired]
    | some job => simp [call, Call.HandsOut, hjob]
  | settled =>
    have hidles : ¬ call.Idles := fun hidles => hidles.2.2.1 rfl
    have hout : ¬ call.HandsOut := nofun
    by_cases hfired : alarm.phase = .fired
    · simp [hfired, hout, hidles]
    · simp [hfired, hout]
  | triggered =>
    have hidles : ¬ call.Idles := fun hidles => hidles.2.2.2 rfl
    have hout : ¬ call.HandsOut := nofun
    simp [hout, hidles]

/-! ### Courses -/

/-- The alarm knows the job registered last and whether its registration stands, and has given away
nothing else. -/
structure Course.Sound (s : Course κ η φ) : Prop where
  job : s.alarm.job = lastRegistered s.calls
  armed : s.alarm.phase = .armed ↔ RegistrationStands s.calls
  timer : s.alarm.phase = .armed → s.alarm.timer.isSome
  stored : s.alarm.phase ≠ .idle → s.alarm.job.isSome
  tells : ∀ earlier call later, s.calls = earlier ++ call :: later →
    call.Tells (lastRegistered earlier) (RegistrationStands earlier)

theorem Course.Sound.record {s : Course κ η φ} (hs : s.Sound) {operation : Operation κ}
    {actions : List (Action κ η φ)} {answer : Answer κ} {after : Alarm κ η}
    (h : operation.Effect s.alarm actions answer after) :
    (s.record operation actions answer after).Sound := by
  have htells : ∀ earlier call later,
      (s.record operation actions answer after).calls = earlier ++ call :: later →
        call.Tells (lastRegistered earlier) (RegistrationStands earlier) := by
    refine (forall_moment_concat_iff ..).2 ⟨hs.tells, ?_⟩
    rw [← hs.job, ← hs.armed]
    exact h.tells
  cases h.outcome with
  | registers job hregistered hjob hphase htimer =>
    refine ⟨?_, ?_, fun _ => htimer, fun _ => by simp [hjob], htells⟩
    · simp [lastRegistered_concat, hregistered, hjob]
    · simp [registrationStands_concat_iff, hregistered, hphase]
  | ends hregistered hends hjob hphase =>
    have hunarmed : after.phase ≠ .armed := by
      rcases hphase with hphase | ⟨hphase, -⟩ <;> simp [hphase]
    refine ⟨?_, ?_, fun harmed => absurd harmed hunarmed, ?_, htells⟩
    · simp [lastRegistered_concat, hregistered, hjob, hs.job]
    · refine iff_of_false hunarmed ?_
      rcases hends with hends | hends <;> simp [registrationStands_concat_iff, hregistered, hends]
    · intro hidle
      rcases hphase with hphase | ⟨-, hstored⟩
      · exact absurd hphase hidle
      · exact hjob ▸ hstored
  | keeps hregistered hexpires hdestroys hjob hphase htimer =>
    -- the phase stays as it is, but for the end of a dispatch
    have harmed : after.phase = .armed ↔ s.alarm.phase = .armed := by
      rcases hphase with hphase | ⟨hafter, hbefore : s.alarm.phase = .fired⟩
      · rw [hphase]
      · simp [hafter, hbefore]
    refine ⟨?_, ?_, fun h => htimer (hs.timer (harmed.1 h)), ?_, htells⟩
    · simp [lastRegistered_concat, hregistered, hjob, hs.job]
    · refine harmed.trans (hs.armed.trans ?_)
      simp [registrationStands_concat_iff, hregistered, hexpires, hdestroys]
    · intro hidle
      rcases hphase with hphase | ⟨hafter, -⟩
      · exact hjob ▸ hs.stored (hphase ▸ hidle)
      · exact absurd hafter hidle

theorem Course.sound (b : Behaviour κ η φ) (config : Config) (operations : List (Operation κ)) :
    (course b config operations).Sound := by
  refine course_induction b ?_ (fun _ _ _ _ _ hs h => hs.record h) operations
  refine ⟨rfl, ?_, nofun, fun h => absurd rfl h, ?_⟩
  · exact iff_of_false nofun (not_since_nil _ _)
  · rintro earlier call later h
    simp at h

/-- An alarm has fired exactly if a job that was handed out is still being dispatched. -/
theorem Course.fired_iff (b : Behaviour κ η φ) (config : Config) (operations : List (Operation κ)) :
    (course b config operations).alarm.phase = .fired ↔
      DispatchStands (course b config operations).calls := by
  induction operations using List.reverseRecOn with
  | nil => exact iff_of_false nofun (not_since_nil _ _)
  | append_singleton operations operation ih =>
    have hs := Course.sound b config operations
    obtain ⟨actions, answer, after, hstep, h⟩ :=
      (course b config operations).exists_step_eq b operation
    rw [course_concat, hstep, record_alarm, record_calls, dispatchStands_concat_iff, ← ih]
    exact h.fired_iff fun hfired => hs.stored (by simp [hfired])

/-- Whatever the facility does, an alarm that is armed has a timer and a job, and one that has fired
has a job.  The job is always the one registered last, which is what every expiry hands out or runs,
and a registration is told that it replaced a job exactly if the one before it still stood. -/
theorem phase_sound (b : Behaviour κ η φ) (config : Config) (operations : List (Operation κ)) :
    let s := course b config operations
    (s.alarm.phase = .armed → s.alarm.timer.isSome ∧ s.alarm.job.isSome) ∧
      (s.alarm.phase = .fired → s.alarm.job.isSome) ∧
      s.alarm.job = lastRegistered s.calls ∧
      ∀ earlier call later, s.calls = earlier ++ call :: later →
        call.Tells (lastRegistered earlier) (RegistrationStands earlier) := by
  have hs := Course.sound b config operations
  refine ⟨fun harmed => ⟨hs.timer harmed, hs.stored ?_⟩, fun hfired => hs.stored ?_, hs.job,
    hs.tells⟩
  · simp [harmed]
  · simp [hfired]

end ElementHost.Alarm
