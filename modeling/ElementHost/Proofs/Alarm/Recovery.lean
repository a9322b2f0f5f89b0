import ElementHost.Proofs.Alarm.Facility
import ElementHost.Proofs.Alarm.Phases

/-!
# What an alarm recovers from

A destruction tries to stop the timer and to delete it, and only if both succeed is the handle given
up.  A timer that could not be stopped but was deleted is gone, and the alarm keeps its handle: no
registration succeeds any more.  That is the one failure an alarm does not recover from.

* `Call.Treatment`, what an operation does with the timer, and `Operation.Effect.treatment`;
* `Call.Orphans`, `Course.Orphaned`, a destruction that deleted what it could not stop;
* `Course.Tracked`, the timer of an alarm is live unless it is orphaned, and `Course.Stale`, it is
  not live;
* `Course.step_destroy`, `Course.step_register`, a destruction and a registration when the facility
  has recovered;
* `recovers_unless_orphaned`, what the two come to, with `not_recovers_unstopped`.
-/

namespace ElementHost.Alarm

variable {κ η φ : Type}

/-! ### What an operation does with the timer -/

/-- What a call does with the timer of the alarm. -/
inductive Call.Treatment (call : Call κ η φ) (after : Alarm κ η) : Prop
  /-- No timer is created, stopped or deleted. -/
  | leaves : (∀ action ∈ call.actions,
        action.created? = none ∧ action.stopped? = none ∧ action.deleted? = none) →
      after.timer = call.before.timer → Treatment call after
  | creates {hertz ticks : UInt32} {name : String} {handle : η} {answer : Except φ Unit} :
      call.before.timer = none →
      call.actions = [.rate hertz, .create name ticks (.ok handle), .start handle ticks answer] →
      after.timer = some handle → Treatment call after
  | destroys {handle : η} : call.before.timer = some handle →
      call.actions = [.stop handle (.ok ()), .delete handle (.ok ())] →
      after.timer = none → after.phase = .idle → Treatment call after
  /-- A destruction that fails leaves the alarm as it was. -/
  | fails {handle : η} {stopped deleted : Except φ Unit} : call.operation = .ask .destroy →
      call.before.timer = some handle →
      call.actions = [.stop handle stopped, .delete handle deleted] →
      (stopped.isOk && deleted.isOk) = false → after = call.before → Treatment call after

theorem Registers.treatment {call : Call κ η φ} {after final : Alarm κ η} {job : κ}
    {delayMicros : UInt32} {result : Except Error Arming}
    (h : Registers call.before job delayMicros call.actions result after)
    (hfinal : final.timer = after.timer) : call.Treatment final := by
  obtain ⟨actions, hactions⟩ : ∃ actions, call.actions = actions := ⟨_, rfl⟩
  rw [hactions] at h
  have hobtained {hertz ticks : UInt32} {earlier : List (Action κ η φ)} {handle : η}
      {obtained : Alarm κ η} {answer : Except φ Unit}
      (hobtains : Obtains call.before ticks earlier handle obtained)
      (hcall : call.actions = .rate hertz :: (earlier ++ [.start handle ticks answer]))
      (htimer : final.timer = obtained.timer) : call.Treatment final := by
    cases hobtains with
    | kept =>
      refine .leaves ?_ htimer
      rw [hcall]
      simp [Action.created?, Action.stopped?, Action.deleted?]
    | created hnone => exact .creates hnone hcall htimer
  cases h with
  | uncreated =>
    refine .leaves ?_ hfinal
    rw [hactions]
    simp [Action.created?, Action.stopped?, Action.deleted?]
  | unstarted reason hobtains => exact hobtained hobtains hactions hfinal
  | started hobtains => exact hobtained hobtains hactions hfinal

theorem Command.Effect.treatment {alarm after : Alarm κ η} {c : Command κ}
    {actions : List (Action κ η φ)} {reply : Reply} (h : c.Effect alarm actions reply after) :
    Call.Treatment { operation := .ask c, before := alarm, actions, answer := .replied reply }
      after := by
  cases h with
  | registered _ hregisters => exact hregisters.treatment (by simp)
  | failed _ hregisters => exact hregisters.treatment rfl
  | declined | stopped | absent => exact .leaves (by simp) rfl
  | destroyed htimer => exact .destroys htimer rfl rfl rfl
  | undestroyed stopped deleted htimer hfails => exact .fails rfl htimer rfl hfails rfl

theorem Operation.Effect.treatment {alarm after : Alarm κ η} {operation : Operation κ}
    {actions : List (Action κ η φ)} {answer : Answer κ}
    (h : operation.Effect alarm actions answer after) :
    Call.Treatment { operation, before := alarm, actions, answer } after := by
  cases h with
  | asked heffect => exact heffect.treatment
  | expired | settled => exact .leaves (by simp) rfl
  | triggered =>
    refine .leaves ?_ rfl
    intro action haction
    obtain ⟨job, -, rfl⟩ := List.mem_map.1 haction
    exact ⟨rfl, rfl, rfl⟩

/-! ### Orphaned alarms -/

/-- A destruction that could not stop the timer and deleted it all the same. -/
def Call.Orphans (call : Call κ η φ) : Prop :=
  call.operation = .ask .destroy ∧
    ∃ handle reason, call.actions = [.stop handle (.error reason), .delete handle (.ok ())]

/-- A destruction has orphaned the alarm. -/
def Course.Orphaned (s : Course κ η φ) : Prop := ∃ call ∈ s.calls, call.Orphans

/-- The handle of the alarm is that of a timer that is not live. -/
def Course.Stale (s : Course κ η φ) : Prop :=
  ∃ handle, s.alarm.timer = some handle ∧ ¬ Live s.actions handle

section Record

variable (s : Course κ η φ) (operation : Operation κ) (actions : List (Action κ η φ))
  (answer : Answer κ) (after : Alarm κ η)

theorem orphaned_record_iff :
    (s.record operation actions answer after).Orphaned ↔
      s.Orphaned ∨ Call.Orphans { operation, before := s.alarm, actions, answer } := by
  simp [Course.Orphaned, or_and_right, exists_or]

/-- Only a destruction orphans an alarm. -/
theorem orphaned_record_of_ne (h : operation ≠ .ask .destroy) :
    (s.record operation actions answer after).Orphaned ↔ s.Orphaned := by
  rw [orphaned_record_iff]
  simp [Call.Orphans, h]

end Record

/-- The alarm has a live timer, or none, unless it is orphaned. -/
structure Course.Tracked (s : Course κ η φ) : Prop where
  live_iff : ∀ handle, s.alarm.timer = some handle → (Live s.actions handle ↔ ¬ s.Orphaned)
  not_orphaned : s.alarm.timer = none → ¬ s.Orphaned

/-- Only an alarm that is orphaned keeps the handle of a timer that is not live. -/
theorem Course.Tracked.stale_iff {s : Course κ η φ} (hs : s.Tracked) : s.Stale ↔ s.Orphaned := by
  constructor
  · rintro ⟨handle, htimer, hdead⟩
    exact not_not.1 (mt (hs.live_iff handle htimer).2 hdead)
  · intro horphaned
    cases htimer : s.alarm.timer with
    | none => exact absurd horphaned (hs.not_orphaned htimer)
    | some handle =>
      exact ⟨handle, htimer, fun hlive => (hs.live_iff handle htimer).1 hlive horphaned⟩

theorem Course.Tracked.record {f : Facility κ η φ} {s : Course κ η φ} (hs : s.Tracked)
    {operation : Operation κ} {actions : List (Action κ η φ)} {answer : Answer κ}
    {after : Alarm κ η} (h : operation.Effect s.alarm actions answer after)
    (hanswered : Answered f.toBehaviour (s.actions ++ actions)) :
    (s.record operation actions answer after).Tracked := by
  cases h.treatment with
  | leaves hactions htimer =>
    have horphaned : (s.record operation actions answer after).Orphaned ↔ s.Orphaned := by
      rw [orphaned_record_iff, or_iff_left]
      rintro ⟨-, handle, reason, hcall⟩
      obtain ⟨-, -, hdeleted⟩ := hactions (.delete handle (.ok ())) (by rw [hcall]; simp)
      cases hdeleted
    have hlive (handle : η) : Live (s.actions ++ actions) handle ↔ Live s.actions handle :=
      live_append_iff_of_forall
        (fun action haction => ⟨(hactions action haction).1, (hactions action haction).2.2⟩) ..
    refine ⟨fun handle hhandle => ?_, fun hnone => ?_⟩
    · rw [horphaned, record_actions, hlive]
      exact hs.live_iff handle (htimer ▸ hhandle)
    · rw [horphaned]
      exact hs.not_orphaned (htimer ▸ hnone)
  | @creates hertz ticks name handle started hnone hactions htimer =>
    obtain rfl : actions = _ := hactions
    have horphaned : ¬ (s.record operation
        [.rate hertz, .create name ticks (.ok handle), .start handle ticks started] answer
        after).Orphaned := by
      rw [orphaned_record_iff]
      refine not_or.2 ⟨hs.not_orphaned hnone, ?_⟩
      simp [Call.Orphans]
    refine ⟨fun other hother => ?_, fun hafter => ?_⟩
    · obtain rfl : handle = other := Option.some.inj (htimer.symm.trans hother)
      refine iff_of_true ?_ horphaned
      rw [record_actions, List.append_cons, List.append_cons, live_concat_iff, live_concat_iff]
      simp [Action.created?, Action.deleted?]
    · cases htimer.symm.trans hafter
  | @destroys handle htimer hactions hnone =>
    obtain rfl : actions = _ := hactions
    have hstop : f.stop s.actions handle = .ok () := hanswered.destroy.1
    refine ⟨fun other hother => ?_, fun _ => ?_⟩
    · cases hnone.symm.trans hother
    · rw [orphaned_record_iff]
      -- an orphaned alarm has no timer that could be stopped
      exact not_or.2 ⟨(hs.live_iff handle htimer).1 (f.live_of_stop _ _ hstop),
        by simp [Call.Orphans]⟩
  | @fails handle stopped deleted hoperation htimer hactions hfails hafter =>
    obtain rfl : actions = _ := hactions
    obtain rfl : operation = _ := hoperation
    obtain rfl : after = s.alarm := hafter
    refine ⟨fun other hother => ?_, fun hnone => ?_⟩
    · obtain rfl : handle = other := Option.some.inj (htimer.symm.trans hother)
      rw [orphaned_record_iff, record_actions, List.append_cons, live_concat_iff, live_concat_iff,
        hs.live_iff handle htimer]
      rcases deleted with reason | ⟨⟩
      · simp [Call.Orphans, Action.created?, Action.deleted?]
      · rcases stopped with reason | ⟨⟩
        · simp [Call.Orphans, Action.created?, Action.deleted?]
        · cases hfails
    · cases htimer.symm.trans hnone

theorem Course.tracked (f : Facility κ η φ) (config : Config) (operations : List (Operation κ)) :
    (course f.toBehaviour config operations).Tracked := by
  refine answered_induction f.toBehaviour ?_ (fun _ _ _ _ _ hs h ha => hs.record h ha) operations
  refine ⟨nofun, fun _ => ?_⟩
  rintro ⟨call, hcall, -⟩
  simp at hcall

/-! ### When the facility has recovered -/

theorem Facility.Recovered.append {f : Facility κ η φ} {done : List (Action κ η φ)}
    (h : f.Recovered done) (later : List (Action κ η φ)) : f.Recovered (done ++ later) where
  create more := by simpa using h.create (later ++ more)
  start more := by simpa using h.start (later ++ more)
  stop more := by simpa using h.stop (later ++ more)
  delete more := by simpa using h.delete (later ++ more)

/-- The answer to the last operation. -/
def Course.answer? (s : Course κ η φ) : Option (Answer κ) := s.calls.getLast?.map Call.answer

/-- The last operation was a registration with success, and a live timer waits for the job. -/
structure Course.Serves (s : Course κ η φ) (job : κ) : Prop where
  answer : ∃ arming, s.answer? = some (.replied (.registered (.ok arming)))
  phase : s.alarm.phase = .armed
  job : s.alarm.job = some job
  timer : ∃ handle, s.alarm.timer = some handle ∧ Live s.actions handle

/-- The last operation was a registration that failed. -/
def Course.Refuses (s : Course κ η φ) : Prop :=
  s.answer? = some (.replied (.registered (.error .timer)))

section Recovered

variable {f : Facility κ η φ} {s : Course κ η φ}

/-- A destruction neither orphans the alarm any more nor helps one that is orphaned. -/
theorem Course.step_destroy (hs : s.Tracked) (hanswered : Answered f.toBehaviour s.actions)
    (hf : f.Recovered s.actions) :
    ((s.step f.toBehaviour (.ask .destroy)).Orphaned ↔ s.Orphaned) ∧
      (s.Orphaned → (s.step f.toBehaviour (.ask .destroy)).alarm = s.alarm) := by
  obtain ⟨actions, answer, after, hstep, heffect, hanswers⟩ :=
    Course.exists_answered_step f.toBehaviour hanswered (.ask .destroy)
  rw [hstep, orphaned_record_iff]
  cases heffect with
  | asked heffect =>
    cases heffect with
    | registered hrequest => cases hrequest
    | failed hrequest => cases hrequest
    | declined _ _ hne => exact absurd rfl hne
    | absent => simp [Call.Orphans]
    | @destroyed handle htimer =>
      have hstop : f.stop s.actions handle = .ok () := hanswers.destroy.1
      have hlive : ¬ s.Orphaned := (hs.live_iff handle htimer).1 (f.live_of_stop _ _ hstop)
      exact ⟨by simp [Call.Orphans], fun h => absurd h hlive⟩
    | @undestroyed handle stopped deleted htimer hfails =>
      refine ⟨or_iff_left ?_, fun _ => rfl⟩
      rintro ⟨-, other, reason, hactions⟩
      obtain ⟨⟨rfl, rfl⟩, -, rfl⟩ :
        (handle = other ∧ stopped = .error reason) ∧ handle = other ∧ deleted = .ok () := by
          simpa using hactions
      have hstop : f.stop s.actions handle = .error reason := hanswers.destroy.1
      have hdelete : f.delete (s.actions ++ [.stop handle (.error reason)]) handle = .ok () :=
        hanswers.destroy.2
      -- what could be deleted was live, and then it could be stopped
      have hlive : Live s.actions handle := by
        simpa [live_concat_iff, Action.created?, Action.deleted?] using
          f.live_of_delete _ _ hdelete
      have hstop' : f.stop s.actions handle = .ok () := by simpa using hf.stop [] handle (by simpa)
      cases hstop.symm.trans hstop'

/-- The handle that a registration comes by is that of a live timer, unless the alarm is
orphaned. -/
theorem Course.Tracked.live_obtains (hs : s.Tracked) {ticks : UInt32} {handle : η}
    {actions : List (Action κ η φ)} {after : Alarm κ η}
    (h : Obtains s.alarm ticks actions handle after) (hertz : UInt32) :
    Live (s.actions ++ .rate hertz :: actions) handle ↔ ¬ s.Orphaned := by
  cases h with
  | kept htimer =>
    rw [← hs.live_iff handle htimer]
    simp [live_concat_iff, Action.created?, Action.deleted?]
  | created hnone =>
    refine iff_of_true ?_ (hs.not_orphaned hnone)
    rw [List.append_cons, live_concat_iff]
    simp [Action.created?]

/-- A registration is a success exactly if the alarm is not orphaned, and one that is orphaned stays
as it is. -/
theorem Course.Tracked.registers (hs : s.Tracked) (hf : f.Recovered s.actions) {job : κ}
    {delayMicros : UInt32} {actions : List (Action κ η φ)} {result : Except Error Arming}
    {after : Alarm κ η} (h : Registers s.alarm job delayMicros actions result after)
    (hanswers : Answered f.toBehaviour (s.actions ++ actions)) :
    ((∃ arming, result = .ok arming) ↔ ¬ s.Orphaned) ∧
      (s.Orphaned → result = .error .timer ∧ after = s.alarm) := by
  -- the answer to the start that ends every registration but one that has no timer
  have hstart {hertz ticks : UInt32} {obtained : List (Action κ η φ)} {handle : η}
      {answer : Except φ Unit}
      (hactions : actions = .rate hertz :: (obtained ++ [.start handle ticks answer])) :
      f.start (s.actions ++ .rate hertz :: obtained) handle ticks = answer :=
    hanswers _ (.start handle ticks answer) [] (by simp [hactions])
  cases h with
  | uncreated hertz reason hnone =>
    -- a facility that has recovered creates timers
    obtain ⟨handle, hcreate⟩ := hf.create [.rate hertz] s.alarm.config.timerName
      (ticksOfMicros delayMicros hertz)
    have hfailed : f.create (s.actions ++ [.rate hertz]) s.alarm.config.timerName
        (ticksOfMicros delayMicros hertz) = .error reason :=
      hanswers _ (.create _ _ (.error reason)) [] (by simp)
    cases hcreate.symm.trans hfailed
  | @unstarted hertz obtained handle after reason hobtains =>
    -- and it starts those that are live
    have horphaned : s.Orphaned := by
      by_contra hnot
      have hlive := (hs.live_obtains hobtains hertz).2 hnot
      cases (hstart rfl).symm.trans (hf.start _ handle _ hlive)
    refine ⟨by simp [horphaned], fun _ => ⟨rfl, ?_⟩⟩
    cases hobtains with
    | kept => rfl
    | created hnone => exact absurd horphaned (hs.not_orphaned hnone)
  | started hobtains =>
    have hstarted := f.live_of_start _ _ _ (hstart rfl)
    have hnot : ¬ s.Orphaned := (hs.live_obtains hobtains _).1 hstarted
    exact ⟨by simp [hnot], fun horphaned => absurd horphaned hnot⟩

/-- What a registration comes to. -/
theorem Course.step_register (hs : s.Tracked) (hanswered : Answered f.toBehaviour s.actions)
    (hf : f.Recovered s.actions) (job : κ) (delayMicros : UInt32) :
    let t := s.step f.toBehaviour (.ask (.register job delayMicros))
    (¬ s.Orphaned → t.Serves job) ∧ (s.Orphaned → t.Refuses ∧ t.alarm = s.alarm ∧ t.Stale) := by
  obtain ⟨actions, answer, after, hstep, heffect, hanswers⟩ :=
    Course.exists_answered_step f.toBehaviour hanswered (.ask (.register job delayMicros))
  have ht : (s.record _ actions answer after).Tracked := hs.record heffect hanswers
  have horphaned := orphaned_record_of_ne s (.ask (.register job delayMicros)) actions answer after
    (by simp)
  rw [hstep]
  cases heffect with
  | asked heffect =>
    cases heffect with
    | declined hrequest => cases hrequest
    | @registered _ given micros _ arming after hrequest hregisters =>
      obtain ⟨rfl, rfl⟩ : job = given ∧ delayMicros = micros := by
        simpa [Command.request?] using hrequest
      have hnot : ¬ s.Orphaned := (hs.registers hf hregisters hanswers).1.1 ⟨arming, rfl⟩
      obtain ⟨hjob, hphase, htimer, -⟩ := hregisters.ok
      obtain ⟨handle, hhandle⟩ := Option.isSome_iff_exists.1 htimer
      have hlive := (ht.live_iff handle (by simpa using hhandle)).trans (not_congr horphaned)
      refine ⟨fun _ => ⟨⟨arming, ?_⟩, ?_, ?_, handle, ?_, hlive.2 hnot⟩, fun h => absurd h hnot⟩
      · simp [Course.answer?, Command.reply]
      · simpa using hphase
      · simpa using hjob
      · simpa using hhandle
    | @failed _ _ _ _ e _ _ hregisters =>
      obtain ⟨hok, hkept⟩ := hs.registers hf hregisters hanswers
      refine ⟨fun h => ?_, fun h => ?_⟩
      · obtain ⟨arming, hresult⟩ := hok.2 h
        cases hresult
      · obtain ⟨hresult, hafter⟩ := hkept h
        cases hresult
        refine ⟨?_, hafter, ht.stale_iff.2 (horphaned.2 h)⟩
        simp [Course.Refuses, Course.answer?, Command.reply]

end Recovered

/-- **An alarm recovers with its facility, unless it is orphaned.**  Once every call succeeds that
can, a destruction and a registration after any course leave the alarm armed on a live timer, unless
an earlier destruction deleted the timer that it could not stop.  Then, and only then, the alarm has
the handle of a timer that is not live.  The registration fails, and the alarm is left as it was
with this handle. -/
theorem recovers_unless_orphaned (f : Facility κ η φ) (config : Config)
    (operations : List (Operation κ))
    (hf : f.Recovered (course f.toBehaviour config operations).actions) (job : κ)
    (delayMicros : UInt32) :
    let s := course f.toBehaviour config operations
    let t := course f.toBehaviour config
      (operations ++ [.ask .destroy, .ask (.register job delayMicros)])
    (s.Stale ↔ s.Orphaned) ∧ (¬ s.Orphaned → t.Serves job) ∧
      (s.Orphaned → t.Refuses ∧ t.alarm = s.alarm ∧ t.Stale) := by
  intro s t
  have hs : s.Tracked := Course.tracked f config operations
  let d := course f.toBehaviour config (operations ++ [.ask .destroy])
  have hd : d = s.step f.toBehaviour (.ask .destroy) := course_concat ..
  have ht : t = d.step f.toBehaviour (.ask (.register job delayMicros)) := by
    simp [t, d, course]
  obtain ⟨horphaned, halarm⟩ :=
    Course.step_destroy hs (Course.answered f.toBehaviour config operations) hf
  rw [← hd] at horphaned halarm
  have hrecovered : f.Recovered d.actions := by
    obtain ⟨actions, answer, after, hstep, -⟩ :=
      s.exists_step_eq f.toBehaviour (.ask .destroy)
    rw [hd, hstep]
    exact hf.append actions
  obtain ⟨hserves, hrefuses⟩ := Course.step_register (Course.tracked f config _)
    (Course.answered f.toBehaviour config _) hrecovered job delayMicros
  rw [← ht] at hserves hrefuses
  refine ⟨hs.stale_iff, fun h => hserves (mt horphaned.1 h), fun h => ?_⟩
  obtain ⟨hanswer, hsame, hstale⟩ := hrefuses (horphaned.2 h)
  exact ⟨hanswer, hsame.trans (halarm h), hstale⟩

/-- A job is registered, and the timer is to be destroyed. -/
def begunAndEnded : List (Operation Nat) := [.ask (.register 1 1000), .ask .destroy]

/-- A timer that was stopped but could not be deleted is destroyed by the next attempt. -/
theorem recovers_unless_orphaned_undeleted :
    (failingOnce 4).Recovered (course (failingOnce 4).toBehaviour {} begunAndEnded).actions ∧
      (course (failingOnce 4).toBehaviour {}
        (begunAndEnded ++ [.ask .destroy, .ask (.register 2 1000)])).Serves 2 := by
  have hf : (failingOnce 4).Recovered
      (course (failingOnce 4).toBehaviour {} begunAndEnded).actions :=
    failingOnce_recovered (by decide +kernel)
  have htimer : (course (failingOnce 4).toBehaviour {} begunAndEnded).alarm.timer = some 1 := by
    decide +kernel
  have hlive : Live (course (failingOnce 4).toBehaviour {} begunAndEnded).actions 1 := by
    decide +kernel
  have horphaned := ((Course.tracked (failingOnce 4) {} begunAndEnded).live_iff 1 htimer).1 hlive
  exact ⟨hf, (recovers_unless_orphaned (failingOnce 4) {} begunAndEnded hf 2 1000).2.1 horphaned⟩

/-- Whatever happened before the facility has recovered, the alarm serves again. -/
def Facility.Recovers (f : Facility κ η φ) : Prop :=
  ∀ config operations job delayMicros,
    f.Recovered (course f.toBehaviour config operations).actions →
      (course f.toBehaviour config
        (operations ++ [.ask .destroy, .ask (.register job delayMicros)])).Serves job

/-- One stop that fails is enough to orphan an alarm. -/
theorem not_recovers_unstopped : ¬ (failingOnce 3 : Facility Nat Nat Unit).Recovers := by
  intro h
  obtain ⟨handle, htimer, hlive⟩ :=
    (h {} begunAndEnded 2 1000 (failingOnce_recovered (by decide +kernel))).timer
  have hkept : (course (failingOnce 3).toBehaviour {}
      (begunAndEnded ++ [.ask .destroy, .ask (.register 2 1000)])).alarm.timer = some 1 := by
    decide +kernel
  obtain rfl : handle = 1 := Option.some.inj (htimer.symm.trans hkept)
  revert hlive
  decide +kernel

end ElementHost.Alarm
