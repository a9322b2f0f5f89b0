import ElementHost.Proofs.Alarm.Command
import ElementHost.Proofs.Moments

/-!
# The course of an alarm

An alarm on a facility that may answer each call as it likes, knowing all that was done before
(`Behaviour`).  Whatever the alarm does to its surroundings is written down in order (`Action`), and
so is everything that is asked of the alarm, with the answer (`Call`).

* `Operation`, everything that can be asked of an alarm, and `Operation.perform`;
* `Course`, an alarm with its records, `Course.step` and `course`;
* `Registers`, `Command.Effect`, `Operation.Effect`, all that can come of a registration, a command
  and an operation, with `run_register`, `run_command` and `run_operation`;
* `course_induction`, from which everything about courses follows.

A job that is run by the operation `trigger` cannot use the alarm meanwhile.  What a job does that
is handed out stands between an `expire` and a `settle`.
-/

namespace ElementHost.Alarm

/-- What an alarm did to its surroundings, with the answer. -/
inductive Action (κ η φ : Type)
  | rate (hertz : UInt32)
  | create (name : String) (ticks : UInt32) (answer : Except φ η)
  | start (handle : η) (ticks : UInt32) (answer : Except φ Unit)
  | stop (handle : η) (answer : Except φ Unit)
  | delete (handle : η) (answer : Except φ Unit)
  /-- A job was run. -/
  | run (job : κ)

/-- How a facility behaves: what it answers, given all that was done before the call. -/
structure Behaviour (κ η φ : Type) where
  rate : List (Action κ η φ) → UInt32
  create : List (Action κ η φ) → String → UInt32 → Except φ η
  start : List (Action κ η φ) → η → UInt32 → Except φ Unit
  stop : List (Action κ η φ) → η → Except φ Unit
  delete : List (Action κ η φ) → η → Except φ Unit

/-- Computations that write down what is done. -/
abbrev RecordM (κ η φ : Type) := StateM (List (Action κ η φ))

variable {κ η φ : Type}

/-- Does something, with an answer that may depend on all that was done before. -/
def act {α : Type} (answer : List (Action κ η φ) → α) (action : α → Action κ η φ) :
    RecordM κ η φ α :=
  modifyGet fun done => (answer done, done ++ [action (answer done)])

@[simp] theorem run_act {α : Type} (answer : List (Action κ η φ) → α) (action : α → Action κ η φ)
    (done : List (Action κ η φ)) :
    (act answer action).run done = pure (answer done, done ++ [action (answer done)]) := rfl

/-- A facility of a given behaviour, in which everything is written down. -/
def Behaviour.timers (b : Behaviour κ η φ) : Timers (RecordM κ η φ) η φ where
  rate := act b.rate .rate
  create name ticks := act (b.create · name ticks) (.create name ticks)
  start handle ticks := act (b.start · handle ticks) (.start handle ticks)
  stop handle := act (b.stop · handle) (.stop handle)
  delete handle := act (b.delete · handle) (.delete handle)

section Timers

variable (b : Behaviour κ η φ)

@[simp] theorem timers_rate : b.timers.rate = act b.rate .rate := rfl

@[simp] theorem timers_create (name : String) (ticks : UInt32) :
    b.timers.create name ticks = act (b.create · name ticks) (.create name ticks) := rfl

@[simp] theorem timers_start (handle : η) (ticks : UInt32) :
    b.timers.start handle ticks = act (b.start · handle ticks) (.start handle ticks) := rfl

@[simp] theorem timers_stop (handle : η) :
    b.timers.stop handle = act (b.stop · handle) (.stop handle) := rfl

@[simp] theorem timers_delete (handle : η) :
    b.timers.delete handle = act (b.delete · handle) (.delete handle) := rfl

end Timers

/-- Something that is done with an alarm. -/
inductive Operation (κ : Type)
  | ask (c : Command κ)
  /-- Has the registered job handed out. -/
  | expire
  | settle
  /-- Runs the registered job as the timer does. -/
  | trigger

/-- What comes back from an operation. -/
inductive Answer (κ : Type)
  | replied (reply : Reply)
  | handedOut (job : Option κ)

/-- Performs an operation.  A job that is run is written down. -/
def Operation.perform (b : Behaviour κ η φ) :
    Operation κ → StateT (Alarm κ η) (RecordM κ η φ) (Answer κ)
  | ask c => return .replied (← c.perform b.timers)
  | expire => return .handedOut (← Alarm.expire)
  | settle => do
    Alarm.settle
    return .replied .nothing
  | trigger => do
    Alarm.trigger fun job => liftM (act (fun _ => ()) fun _ => .run job : RecordM κ η φ Unit)
    return .replied .nothing

/-- The record of one operation. -/
structure Call (κ η φ : Type) where
  operation : Operation κ
  /-- The alarm before the operation. -/
  before : Alarm κ η
  /-- What the alarm did, in order. -/
  actions : List (Action κ η φ)
  answer : Answer κ

/-- An alarm with the records of all that was done with it and by it. -/
structure Course (κ η φ : Type) where
  alarm : Alarm κ η
  actions : List (Action κ η φ) := []
  calls : List (Call κ η φ) := []

/-- The course of an alarm after one more operation. -/
def Course.step (b : Behaviour κ η φ) (s : Course κ η φ) (operation : Operation κ) :
    Course κ η φ :=
  match ((operation.perform b).run s.alarm).run s.actions with
  | ((answer, alarm), actions) =>
    { alarm, actions
      calls := s.calls ++
        [{ operation, before := s.alarm, actions := actions.drop s.actions.length, answer }] }

/-- The course of a new alarm. -/
def course (b : Behaviour κ η φ) (config : Config) (operations : List (Operation κ)) :
    Course κ η φ :=
  operations.foldl (Course.step b) { alarm := { config } }

/-! ### Registrations -/

/-- How a registration comes by the handle of the timer. -/
inductive Obtains (alarm : Alarm κ η) (ticks : UInt32) : List (Action κ η φ) → η → Alarm κ η → Prop
  | kept {handle : η} : alarm.timer = some handle → Obtains alarm ticks [] handle alarm
  | created {handle : η} : alarm.timer = none →
      Obtains alarm ticks [.create alarm.config.timerName ticks (.ok handle)] handle
        { alarm with timer := some handle, created := alarm.created + 1 }

/-- All that can come of a registration: the actions, the result, and the alarm after it. -/
inductive Registers (alarm : Alarm κ η) (job : κ) (delayMicros : UInt32) :
    List (Action κ η φ) → Except Error Arming → Alarm κ η → Prop
  /-- There was no timer and none could be created. -/
  | uncreated (hertz : UInt32) (reason : φ) : alarm.timer = none →
      Registers alarm job delayMicros
        [.rate hertz,
          .create alarm.config.timerName (ticksOfMicros delayMicros hertz) (.error reason)]
        (.error .timer) alarm
  | unstarted {hertz : UInt32} {actions : List (Action κ η φ)} {handle : η} {after : Alarm κ η}
      (reason : φ) : Obtains alarm (ticksOfMicros delayMicros hertz) actions handle after →
      Registers alarm job delayMicros
        (.rate hertz ::
          (actions ++ [.start handle (ticksOfMicros delayMicros hertz) (.error reason)]))
        (.error .timer) after
  | started {hertz : UInt32} {actions : List (Action κ η φ)} {handle : η} {after : Alarm κ η} :
      Obtains alarm (ticksOfMicros delayMicros hertz) actions handle after →
      Registers alarm job delayMicros
        (.rate hertz ::
          (actions ++ [.start handle (ticksOfMicros delayMicros hertz) (.ok ())]))
        (.ok (if alarm.phase = .armed then .replaced else .fresh))
        { after with job := some job, phase := .armed }

/-- The handle of the timer is in place once it has been obtained, and the job and the phase are as
they were. -/
theorem Obtains.after {alarm after : Alarm κ η} {ticks : UInt32} {actions : List (Action κ η φ)}
    {handle : η} (h : Obtains alarm ticks actions handle after) :
    after.timer = some handle ∧ after.job = alarm.job ∧ after.phase = alarm.phase := by
  cases h with
  | kept htimer => exact ⟨htimer, rfl, rfl⟩
  | created => exact ⟨rfl, rfl, rfl⟩

theorem run_obtainTimer (b : Behaviour κ η φ) (ticks : UInt32) (alarm : Alarm κ η)
    (done : List (Action κ η φ)) :
    (∃ reason, alarm.timer = none ∧
      ((obtainTimer b.timers ticks).run alarm).run done =
        pure ((.error .timer, alarm),
          done ++ [.create alarm.config.timerName ticks (.error reason)])) ∨
      ∃ actions handle after,
        ((obtainTimer b.timers ticks).run alarm).run done =
          pure ((.ok handle, after), done ++ actions) ∧
            Obtains alarm ticks actions handle after := by
  cases htimer : alarm.timer with
  | some handle =>
    exact .inr ⟨[], handle, alarm, by simp [obtainTimer, htimer], .kept htimer⟩
  | none =>
    cases hcreate : b.create done alarm.config.timerName ticks with
    | error reason =>
      exact .inl ⟨reason, rfl, by simp [obtainTimer, htimer, hcreate]⟩
    | ok handle =>
      exact .inr ⟨_, handle, _, by simp [obtainTimer, htimer, hcreate],
        .created htimer⟩

theorem run_register (b : Behaviour κ η φ) (job : κ) (delayMicros : UInt32) (alarm : Alarm κ η)
    (done : List (Action κ η φ)) :
    ∃ actions result after,
      ((register b.timers job delayMicros).run alarm).run done =
        pure ((result, after), done ++ actions) ∧
        Registers alarm job delayMicros actions result after := by
  rcases run_obtainTimer b (ticksOfMicros delayMicros (b.rate done)) alarm
    (done ++ [.rate (b.rate done)]) with
    ⟨reason, htimer, hrun⟩ | ⟨actions, handle, after, hrun, hobtains⟩
  · exact ⟨_, _, _, by simp [register, hrun], .uncreated (b.rate done) reason htimer⟩
  · cases hstart : b.start (done ++ .rate (b.rate done) :: actions) handle
        (ticksOfMicros delayMicros (b.rate done)) with
    | error reason =>
      exact ⟨_, _, _, by simp [register, hrun, hstart], .unstarted reason hobtains⟩
    | ok _ => exact ⟨_, _, _, by simp [register, hrun, hstart], .started hobtains⟩

/-! ### Commands -/

/-- What a command answers by the result of its registration. -/
def Command.reply (result : Except Error Arming) : Command κ → Reply
  | create _ => .created (result.map fun _ => ())
  | start _ => .started (result.map some)
  | register _ _ => .registered result
  | stop => .nothing
  | destroy => .nothing

/-- The alarm after a command whose registration was a success. -/
def Command.conclude (after : Alarm κ η) : Command κ → Alarm κ η
  | register _ _ => after
  | _ => { after with triggered := true }

section Conclude

variable (after : Alarm κ η) (c : Command κ)

@[simp] theorem conclude_timer : (c.conclude after).timer = after.timer := by cases c <;> rfl

@[simp] theorem conclude_job : (c.conclude after).job = after.job := by cases c <;> rfl

@[simp] theorem conclude_phase : (c.conclude after).phase = after.phase := by cases c <;> rfl

@[simp] theorem conclude_created : (c.conclude after).created = after.created := by
  cases c <;> rfl

end Conclude

/-- What a command answers that registers nothing. -/
def Command.decline : Command κ → Reply
  | create _ => .created (.ok ())
  | start _ => .started (.ok none)
  | _ => .nothing

/-- All that can come of a command: the actions, the reply, and the alarm after it. -/
inductive Command.Effect (alarm : Alarm κ η) :
    Command κ → List (Action κ η φ) → Reply → Alarm κ η → Prop
  | registered {c : Command κ} {job : κ} {delayMicros : UInt32} {actions : List (Action κ η φ)}
      {arming : Arming} {after : Alarm κ η} : c.request? alarm = some (job, delayMicros) →
      Registers alarm job delayMicros actions (.ok arming) after →
      Effect alarm c actions (c.reply (.ok arming)) (c.conclude after)
  | failed {c : Command κ} {job : κ} {delayMicros : UInt32} {actions : List (Action κ η φ)}
      {e : Error} {after : Alarm κ η} : c.request? alarm = some (job, delayMicros) →
      Registers alarm job delayMicros actions (.error e) after →
      Effect alarm c actions (c.reply (.error e)) after
  /-- No job was given, or a start is in flight. -/
  | declined {c : Command κ} : c.request? alarm = none → c ≠ .stop → c ≠ .destroy →
      Effect alarm c [] c.decline alarm
  | stopped : Effect alarm .stop [] .nothing { alarm with triggered := false }
  | absent : alarm.timer = none → Effect alarm .destroy [] .nothing alarm
  | destroyed {handle : η} : alarm.timer = some handle →
      Effect alarm .destroy [.stop handle (.ok ()), .delete handle (.ok ())] .nothing
        { alarm with timer := none, phase := .idle }
  | undestroyed {handle : η} (stopped deleted : Except φ Unit) : alarm.timer = some handle →
      (stopped.isOk && deleted.isOk) = false →
      Effect alarm .destroy [.stop handle stopped, .delete handle deleted] .nothing alarm

section Requests

variable {m : Type → Type} [Monad m] [LawfulMonad m] (timers : Timers m η φ)

/-- A start that is not declined is a registration. -/
theorem run_start {alarm : Alarm κ η} (h : alarm.triggered = false) (job : κ) :
    (start timers job).run alarm = do
      let (result, after) ← (register timers job alarm.config.delayMicros).run alarm
      return (result.map some,
        if result.isOk then { after with triggered := true } else after) := by
  simp only [start, StateT.run_bind, StateT.run_get, pure_bind, h, Bool.false_eq_true, ↓reduceIte]
  refine bind_congr ?_
  rintro ⟨_ | arming, after⟩
  · simp [Except.map, Except.isOk, Except.toBool]
  · simp [Except.map, Except.isOk, Except.toBool]

/-- A command that asks for a registration is that registration, with a reply of its own. -/
theorem run_of_request {c : Command κ} {alarm : Alarm κ η} {job : κ} {delayMicros : UInt32}
    (h : c.request? alarm = some (job, delayMicros)) :
    (c.perform timers).run alarm = do
      let (result, after) ← (register timers job delayMicros).run alarm
      return (c.reply result, if result.isOk then c.conclude after else after) := by
  cases c with
  | create given =>
    cases given with
    | none => simp [Command.request?] at h
    | some given =>
      obtain ⟨ht, rfl, rfl⟩ : alarm.triggered = false ∧ given = job ∧
          alarm.config.delayMicros = delayMicros := by simpa [Command.request?] using h
      have hforget : ∀ result : Except Error Arming,
          (result.map some).map (fun _ => ()) = result.map fun _ => () := by
        rintro (_ | _) <;> rfl
      simp [Command.perform, Alarm.create, run_start timers ht, Command.reply, Command.conclude,
        hforget]
  | start given =>
    obtain ⟨ht, rfl, rfl⟩ : alarm.triggered = false ∧ given = job ∧
        alarm.config.delayMicros = delayMicros := by simpa [Command.request?] using h
    simp [Command.perform, run_start timers ht, Command.reply, Command.conclude]
  | register given micros =>
    obtain ⟨rfl, rfl⟩ : given = job ∧ micros = delayMicros := by simpa [Command.request?] using h
    simp [Command.perform, Command.reply, Command.conclude]
  | stop => cases h
  | destroy => cases h

end Requests

theorem run_command (b : Behaviour κ η φ) (c : Command κ) (alarm : Alarm κ η)
    (done : List (Action κ η φ)) :
    ∃ actions reply after,
      ((c.perform b.timers).run alarm).run done = pure ((reply, after), done ++ actions) ∧
        c.Effect alarm actions reply after := by
  cases hrequest : c.request? alarm with
  | some request =>
    obtain ⟨job, delayMicros⟩ := request
    obtain ⟨actions, result, after, hrun, hregisters⟩ := run_register b job delayMicros alarm done
    cases result with
    | ok arming =>
      exact ⟨actions, _, _, by simp [run_of_request _ hrequest, hrun, Except.isOk, Except.toBool],
        .registered hrequest hregisters⟩
    | error e =>
      exact ⟨actions, _, _, by simp [run_of_request _ hrequest, hrun, Except.isOk, Except.toBool],
        .failed hrequest hregisters⟩
  | none =>
    cases c with
    | create given =>
      refine ⟨[], _, _, ?_, .declined hrequest (by simp) (by simp)⟩
      cases given with
      | none => simp [Command.perform, Alarm.create, Command.decline]
      | some given =>
        have ht : alarm.triggered = true := by simpa [Command.request?] using hrequest
        simp [Command.perform, Alarm.create, Alarm.start, ht, Command.decline, Except.map]
    | start given =>
      refine ⟨[], _, _, ?_, .declined hrequest (by simp) (by simp)⟩
      have ht : alarm.triggered = true := by simpa [Command.request?] using hrequest
      simp [Command.perform, Alarm.start, ht, Command.decline]
    | stop => exact ⟨[], _, _, by simp [Command.perform, Alarm.stop], .stopped⟩
    | register given micros => cases hrequest
    | destroy =>
      cases htimer : alarm.timer with
      | none => exact ⟨[], _, _, by simp [Command.perform, destroy, htimer], .absent htimer⟩
      | some handle =>
        obtain ⟨stopped, hstop⟩ : ∃ stopped, b.stop done handle = stopped := ⟨_, rfl⟩
        obtain ⟨deleted, hdelete⟩ :
          ∃ deleted, b.delete (done ++ [.stop handle stopped]) handle = deleted := ⟨_, rfl⟩
        rcases stopped with reason | ⟨⟩
        · refine ⟨_, _, _, ?_, .undestroyed (.error reason) deleted htimer rfl⟩
          simp [Command.perform, destroy, htimer, hstop, hdelete, Except.isOk, Except.toBool]
        · rcases deleted with reason | ⟨⟩
          · refine ⟨_, _, _, ?_, .undestroyed (.ok ()) (.error reason) htimer rfl⟩
            simp [Command.perform, destroy, htimer, hstop, hdelete, Except.isOk, Except.toBool]
          · refine ⟨_, _, _, ?_, .destroyed htimer⟩
            simp [Command.perform, destroy, htimer, hstop, hdelete, Except.isOk, Except.toBool]

/-! ### Operations -/

/-- All that can come of an operation: the actions, the answer, and the alarm after it. -/
inductive Operation.Effect (alarm : Alarm κ η) :
    Operation κ → List (Action κ η φ) → Answer κ → Alarm κ η → Prop
  | asked {c : Command κ} {actions : List (Action κ η φ)} {reply : Reply} {after : Alarm κ η} :
      c.Effect alarm actions reply after →
      Effect alarm (.ask c) actions (.replied reply) after
  | expired : Effect alarm .expire [] (.handedOut alarm.job)
      { alarm with phase := if alarm.job.isSome then .fired else .idle }
  | settled : Effect alarm .settle [] (.replied .nothing)
      { alarm with phase := if alarm.phase = .fired then .idle else alarm.phase }
  | triggered : Effect alarm .trigger (alarm.job.toList.map .run) (.replied .nothing)
      { alarm with phase := .idle }

theorem run_operation (b : Behaviour κ η φ) (operation : Operation κ) (alarm : Alarm κ η)
    (done : List (Action κ η φ)) :
    ∃ actions answer after,
      ((operation.perform b).run alarm).run done = pure ((answer, after), done ++ actions) ∧
        operation.Effect alarm actions answer after := by
  cases operation with
  | ask c =>
    obtain ⟨actions, reply, after, hrun, heffect⟩ := run_command b c alarm done
    exact ⟨actions, .replied reply, after, by simp [Operation.perform, hrun], .asked heffect⟩
  | expire =>
    exact ⟨[], _, _, by simp [Operation.perform, Alarm.expire], .expired⟩
  | settle =>
    exact ⟨[], _, _, by simp [Operation.perform, Alarm.settle], .settled⟩
  | trigger =>
    refine ⟨_, _, _, ?_, .triggered⟩
    cases hjob : alarm.job with
    | none => simp [Operation.perform, Alarm.trigger, Alarm.expire, Alarm.settle, hjob]
    | some job => simp [Operation.perform, Alarm.trigger, Alarm.expire, Alarm.settle, hjob]

/-! ### Courses -/

/-- A course with one more record. -/
def Course.record (s : Course κ η φ) (operation : Operation κ) (actions : List (Action κ η φ))
    (answer : Answer κ) (after : Alarm κ η) : Course κ η φ where
  alarm := after
  actions := s.actions ++ actions
  calls := s.calls ++ [{ operation, before := s.alarm, actions, answer }]

section Record

variable (s : Course κ η φ) (operation : Operation κ) (actions : List (Action κ η φ))
  (answer : Answer κ) (after : Alarm κ η)

@[simp] theorem record_alarm : (s.record operation actions answer after).alarm = after := rfl

@[simp] theorem record_actions :
    (s.record operation actions answer after).actions = s.actions ++ actions := rfl

@[simp] theorem record_calls : (s.record operation actions answer after).calls =
    s.calls ++ [{ operation, before := s.alarm, actions, answer }] := rfl

end Record

theorem Course.exists_step_eq (b : Behaviour κ η φ) (s : Course κ η φ) (operation : Operation κ) :
    ∃ actions answer after, s.step b operation = s.record operation actions answer after ∧
      operation.Effect s.alarm actions answer after := by
  obtain ⟨actions, answer, after, hrun, heffect⟩ := run_operation b operation s.alarm s.actions
  refine ⟨actions, answer, after, ?_, heffect⟩
  rw [Course.step, hrun]
  show Course.mk after (s.actions ++ actions) (s.calls ++
    [⟨operation, s.alarm, (s.actions ++ actions).drop s.actions.length, answer⟩]) = _
  rw [List.drop_left]
  rfl

theorem course_concat (b : Behaviour κ η φ) (config : Config) (operations : List (Operation κ))
    (operation : Operation κ) :
    course b config (operations ++ [operation]) =
      (course b config operations).step b operation := by
  simp [course]

/-- What holds of a new alarm and is kept by every operation, whatever comes of it, holds in every
course. -/
theorem course_induction {P : Course κ η φ → Prop} (b : Behaviour κ η φ) {config : Config}
    (hnew : P { alarm := { config } })
    (hrecord : ∀ (s : Course κ η φ) operation actions answer after, P s →
      operation.Effect s.alarm actions answer after → P (s.record operation actions answer after))
    (operations : List (Operation κ)) : P (course b config operations) := by
  induction operations using List.reverseRecOn with
  | nil => exact hnew
  | append_singleton operations operation ih =>
    obtain ⟨actions, answer, after, hstep, heffect⟩ :=
      (course b config operations).exists_step_eq b operation
    rw [course_concat, hstep]
    exact hrecord _ operation actions answer after ih heffect

end ElementHost.Alarm
