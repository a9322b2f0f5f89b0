import ElementHost.Proofs.Alarm.Recovery

/-!
# Whether the timer of an armed alarm runs

The alarm and the facility each have a view of the timer: the alarm is armed from a registration to
the next expiry or destruction, the timer runs from its start until it is stopped or deleted.  The
two agree as long as no destruction comes off by half, that is, stops the timer and fails to delete
it, or the other way round.

* `Call.Starts`, `Call.Ends`, `Call.HalfDestroys`, what a call did to a timer;
* `Course.ArmedBy`, the registration that an armed alarm owes its phase to;
* `armed_runs_iff`, when the two views agree, with `not_keepsRunning_unstopped`.
-/

namespace ElementHost.Alarm

variable {κ η φ : Type}

namespace Call

/-- The call ended with a start of the timer. -/
def Starts (call : Call κ η φ) (handle : η) : Prop :=
  ∃ ticks, call.actions.getLast? = some (.start handle ticks (.ok ()))

/-- The call stopped the timer or deleted it. -/
def Ends (call : Call κ η φ) (handle : η) : Prop :=
  ∃ action ∈ call.actions, action.stopped? = some handle ∨ action.deleted? = some handle

/-- A destruction that stopped the timer or deleted it, but not both. -/
def HalfDestroys (call : Call κ η φ) : Prop :=
  call.operation = .ask .destroy ∧ ∃ handle stopped deleted,
    call.actions = [.stop handle stopped, .delete handle deleted] ∧ stopped.isOk ≠ deleted.isOk

end Call

section Destruction

variable (before : Alarm κ η) (handle : η) (stopped deleted : Except φ Unit) (answer : Answer κ)

/-- A destruction that was tried, with the answers of the facility. -/
abbrev Call.destruction : Call κ η φ :=
  { operation := .ask .destroy, before, answer
    actions := [.stop handle stopped, .delete handle deleted] }

theorem ends_destruction_iff :
    (Call.destruction before handle stopped deleted answer).Ends handle ↔
      stopped.isOk ∨ deleted.isOk := by
  cases stopped <;> cases deleted <;>
    simp [Call.Ends, Action.stopped?, Action.deleted?, Except.isOk, Except.toBool]

theorem halfDestroys_destruction_iff :
    (Call.destruction before handle stopped deleted answer).HalfDestroys ↔
      stopped.isOk ≠ deleted.isOk := by
  constructor
  · rintro ⟨-, other, stopped', deleted', hactions, hne⟩
    obtain ⟨⟨-, rfl⟩, -, rfl⟩ :
        (handle = other ∧ stopped = stopped') ∧ handle = other ∧ deleted = deleted' := by
      simpa using hactions
    exact hne
  · intro hne
    exact ⟨rfl, handle, stopped, deleted, rfl, hne⟩

theorem live_append_destruction_iff (done : List (Action κ η φ)) :
    Live (done ++ [.stop handle stopped, .delete handle deleted]) handle ↔
      Live done handle ∧ ¬ deleted.isOk := by
  rw [List.append_cons, live_concat_iff, live_concat_iff]
  cases deleted <;> simp [Action.created?, Action.deleted?, Except.isOk, Except.toBool]

end Destruction

/-- A registration with success ends with the start of the timer that the alarm has from then on. -/
theorem Operation.Effect.starts {alarm after : Alarm κ η} {operation : Operation κ}
    {actions : List (Action κ η φ)} {answer : Answer κ} {job : κ}
    (h : operation.Effect alarm actions answer after)
    (hregistered : Call.registered? { operation, before := alarm, actions, answer } = some job) :
    ∃ handle, after.timer = some handle ∧
      Call.Starts { operation, before := alarm, actions, answer } handle := by
  cases h with
  | asked heffect =>
    cases heffect with
    | @registered _ _ delayMicros _ _ _ _ hregisters =>
      cases hregisters with
      | @started hertz obtained handle _ hobtains =>
        refine ⟨handle, by simpa using hobtains.after.1, ticksOfMicros delayMicros hertz, ?_⟩
        rw [← List.cons_append, List.getLast?_concat]
    | failed hrequest =>
      simp [Call.registered?, Command.isOk_reply hrequest, Except.isOk, Except.toBool]
        at hregistered
    | declined hrequest => simp [Call.registered?, hrequest] at hregistered
    | stopped | absent | destroyed | undestroyed =>
      simp [Call.registered?, Command.request?] at hregistered
  | expired | settled | triggered => cases hregistered

/-- The alarm owes its phase to `call`: it registered the job and started the timer, and nothing was
registered `later`. -/
structure Course.ArmedBy (s : Course κ η φ) (earlier : List (Call κ η φ)) (call : Call κ η φ)
    (later : List (Call κ η φ)) (handle : η) : Prop where
  calls : s.calls = earlier ++ call :: later
  registered : ∃ job, call.registered? = some job ∧ s.alarm.job = some job
  last : ∀ d ∈ later, d.registered? = none
  timer : s.alarm.timer = some handle
  starts : call.Starts handle

/-- The timer is live, and no later call stopped or deleted it. -/
def Course.Runs (s : Course κ η φ) (later : List (Call κ η φ)) (handle : η) : Prop :=
  Live s.actions handle ∧ ∀ d ∈ later, ¬ d.Ends handle

/-- One more call that registers nothing and leaves the alarm armed: the timer runs on unless the
call is a destruction that comes off by half. -/
theorem Operation.Effect.runs_iff {s : Course κ η φ} {operation : Operation κ}
    {actions : List (Action κ η φ)} {answer : Answer κ} {after : Alarm κ η}
    (h : operation.Effect s.alarm actions answer after) {handle : η}
    (htimer : s.alarm.timer = some handle) (harmed : after.phase = .armed)
    (later : List (Call κ η φ)) :
    let d : Call κ η φ := { operation, before := s.alarm, actions, answer }
    after.timer = some handle ∧
      ((s.record operation actions answer after).Runs (later ++ [d]) handle ↔
        s.Runs later handle ∧ ¬ d.HalfDestroys) := by
  intro d
  have hlater : (∀ e ∈ later ++ [d], ¬ e.Ends handle) ↔
      (∀ e ∈ later, ¬ e.Ends handle) ∧ ¬ d.Ends handle := by
    simp [or_imp, forall_and]
  rw [Course.Runs, Course.Runs, hlater, record_actions]
  cases h.treatment with
  | leaves hactions hafter =>
    have hlive : Live (s.actions ++ actions) handle ↔ Live s.actions handle :=
      live_append_iff_of_forall
        (fun action haction => ⟨(hactions action haction).1, (hactions action haction).2.2⟩) ..
    have hends : ¬ d.Ends handle := by
      rintro ⟨action, haction, hended⟩
      simp [hactions action haction] at hended
    have hhalf : ¬ d.HalfDestroys := by
      rintro ⟨-, other, stopped, deleted, hcall, hne⟩
      obtain ⟨-, hstopped, -⟩ := hactions (.stop other stopped) (by
        rw [show actions = _ from hcall]
        simp)
      obtain ⟨-, -, hdeleted⟩ := hactions (.delete other deleted) (by
        rw [show actions = _ from hcall]
        simp)
      cases stopped <;> cases deleted
      · exact hne rfl
      · cases hdeleted
      · cases hstopped
      · cases hstopped
    exact ⟨hafter.trans htimer, by simp [hlive, hends, hhalf]⟩
  | creates hnone => cases htimer.symm.trans hnone
  | destroys _ _ _ hidle => cases harmed.symm.trans hidle
  | @fails other stopped deleted hoperation hother hactions hfails hafter =>
    obtain rfl : handle = other := Option.some.inj (htimer.symm.trans hother)
    obtain rfl : actions = _ := hactions
    obtain rfl : operation = _ := hoperation
    refine ⟨hafter ▸ htimer, ?_⟩
    rw [live_append_destruction_iff, ends_destruction_iff, halfDestroys_destruction_iff]
    cases hs : stopped.isOk <;> cases hd : deleted.isOk
    · simp
    · simp
    · simp
    · simp [hs, hd] at hfails

/-- An armed alarm owes its phase to a registration, and its timer runs unless a destruction has
come off by half since. -/
def Course.Charged (s : Course κ η φ) : Prop :=
  s.alarm.phase = .armed → ∃ earlier call later handle, s.ArmedBy earlier call later handle ∧
    (s.Runs later handle ↔ ∀ d ∈ later, ¬ d.HalfDestroys)

theorem Course.Charged.record {f : Facility κ η φ} {s : Course κ η φ} (hs : s.Charged)
    {operation : Operation κ} {actions : List (Action κ η φ)} {answer : Answer κ}
    {after : Alarm κ η} (h : operation.Effect s.alarm actions answer after)
    (hanswered : Answered f.toBehaviour (s.actions ++ actions)) :
    (s.record operation actions answer after).Charged := by
  intro harmed
  replace harmed : after.phase = .armed := harmed
  let d : Call κ η φ := { operation, before := s.alarm, actions, answer }
  cases h.outcome with
  | registers job hregistered hjob =>
    obtain ⟨handle, htimer, ticks, hstart⟩ := h.starts hregistered
    obtain ⟨obtained, hactions⟩ := List.getLast?_eq_some_iff.1 hstart
    obtain rfl : actions = obtained ++ [.start handle ticks (.ok ())] := hactions
    -- what could be started was live
    have hanswer : f.start (s.actions ++ obtained) handle ticks = .ok () :=
      hanswered _ (.start handle ticks (.ok ())) [] (by simp)
    have hlive : Live (s.actions ++ (obtained ++ [.start handle ticks (.ok ())])) handle := by
      rw [← List.append_assoc, live_concat_iff]
      exact .inr ⟨f.live_of_start _ _ _ hanswer, by simp [Action.deleted?]⟩
    refine ⟨s.calls, d, [], handle, ⟨rfl, ⟨job, hregistered, hjob⟩, by simp, htimer, ticks, hstart⟩,
      ?_⟩
    exact iff_of_true ⟨hlive, by simp⟩ (by simp)
  | ends _ _ _ hphase => rcases hphase with hphase | ⟨hphase, -⟩ <;> simp [hphase] at harmed
  | keeps hregistered _ _ hjob hphase =>
    have hbefore : s.alarm.phase = .armed := by
      rcases hphase with hphase | ⟨hphase, -⟩
      · exact hphase ▸ harmed
      · simp [hphase] at harmed
    obtain ⟨earlier, call, later, handle, hcall, hruns⟩ := hs hbefore
    obtain ⟨htimer, hruns'⟩ := h.runs_iff hcall.timer harmed later
    refine ⟨earlier, call, later ++ [d], handle, ⟨?_, ?_, ?_, htimer, hcall.starts⟩, ?_⟩
    · simp [hcall.calls, d]
    · obtain ⟨job, hcalled, hstored⟩ := hcall.registered
      exact ⟨job, hcalled, hjob.trans hstored⟩
    · simpa [or_imp, forall_and] using ⟨hcall.last, hregistered⟩
    · rw [hruns', hruns]
      simp [or_imp, forall_and, d]

/-- **The timer of an armed alarm runs, but for a destruction that came off by half.**  An alarm is
armed by its last registration, which started the timer that the alarm still has.  The timer is
live, and was neither stopped nor deleted since, exactly if no destruction since has done one of the
two and failed to do the other. -/
theorem armed_runs_iff (f : Facility κ η φ) (config : Config) (operations : List (Operation κ))
    (harmed : (course f.toBehaviour config operations).alarm.phase = .armed) :
    let s := course f.toBehaviour config operations
    ∃ earlier call later handle, s.ArmedBy earlier call later handle ∧
      (s.Runs later handle ↔ ∀ d ∈ later, ¬ d.HalfDestroys) :=
  answered_induction (P := Course.Charged) f.toBehaviour nofun
    (fun _ _ _ _ _ hs h hanswered => hs.record h hanswered) operations harmed

/-- A timer that was stopped but could not be deleted no longer runs, and the alarm stays armed. -/
theorem armed_runs_iff_undestroyed :
    (course (failingOnce 4).toBehaviour {} begunAndEnded).alarm.phase = .armed ∧
      ∃ earlier call later handle,
        (course (failingOnce 4).toBehaviour {} begunAndEnded).ArmedBy earlier call later handle ∧
          ((course (failingOnce 4).toBehaviour {} begunAndEnded).Runs later handle ↔
            ∀ d ∈ later, ¬ d.HalfDestroys) := by
  have harmed : (course (failingOnce 4).toBehaviour {} begunAndEnded).alarm.phase = .armed := by
    decide +kernel
  exact ⟨harmed, armed_runs_iff (failingOnce 4) {} begunAndEnded harmed⟩

/-- Whatever fails, the timer of an armed alarm runs. -/
def Facility.KeepsRunning (f : Facility κ η φ) : Prop :=
  ∀ config operations, (course f.toBehaviour config operations).alarm.phase = .armed →
    ∃ earlier call later handle,
      (course f.toBehaviour config operations).ArmedBy earlier call later handle ∧
        (course f.toBehaviour config operations).Runs later handle

/-- One stop that fails leaves the alarm armed without a timer. -/
theorem not_keepsRunning_unstopped : ¬ (failingOnce 3 : Facility Nat Nat Unit).KeepsRunning := by
  intro h
  have harmed : (course (failingOnce 3).toBehaviour {} begunAndEnded).alarm.phase = .armed := by
    decide +kernel
  obtain ⟨earlier, call, later, handle, harmedBy, hlive, -⟩ := h {} begunAndEnded harmed
  have hkept : (course (failingOnce 3).toBehaviour {} begunAndEnded).alarm.timer = some 1 := by
    decide +kernel
  obtain rfl : handle = 1 := Option.some.inj (harmedBy.timer.symm.trans hkept)
  revert hlive
  decide +kernel

end ElementHost.Alarm
