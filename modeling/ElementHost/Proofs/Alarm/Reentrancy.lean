import ElementHost.Alarm.Shared
import ElementHost.Proofs.Alarm.Phases

/-!
# An alarm that is used while its job runs

Several contexts use one alarm behind its lock, among them the jobs it hands out, which may ask it
for anything and may be overtaken by further expiries.  Each use of the alarm is made under the lock
and in one piece; between any two uses of a context, the others may make theirs.

* `Command.run_perform_lift`, `exec`, `exec_use`, `exec_fire`, single uses and an expiry;
* `Routine`, what a context does, with the jobs that run within it, and `Agenda`, the uses it is
  made of, with `Routine.agenda` and `Routine.perform_agenda`;
* `Contexts`, `turn` and `interleave`, contexts that take turns in any order;
* `Agenda.Step`, what is left after a use, and `exec_interleave`, the law of every interleaving;
* `Settled`, no expiry is without its settlement, and `Contexts.Fair`, that one is still to come;
* `reentrancy_sound`, what the phase says then.
-/

namespace ElementHost.Alarm

variable {κ η φ : Type}

/-! ### Single uses -/

section Lift

variable {m n : Type → Type} [Monad m] [LawfulMonad m] [Monad n] [LawfulMonad n]
  [MonadLiftT m n] [LawfulMonadLiftT m n] (timers : Timers m η φ)

theorem run_obtainTimer_lift (ticks : UInt32) (alarm : Alarm κ η) :
    (obtainTimer (timers.lift : Timers n η φ) ticks).run alarm =
      monadLift ((obtainTimer timers ticks).run alarm) := by
  cases h : alarm.timer with
  | some handle => simp [obtainTimer, h]
  | none =>
    simp only [obtainTimer, Timers.lift, StateT.run_bind, StateT.run_get, pure_bind, h,
      StateT.run_monadLift, bind_pure_comp, bind_map_left, monadLift_bind]
    refine bind_congr fun answer => ?_
    cases answer <;> simp

theorem run_register_lift (job : κ) (delayMicros : UInt32) (alarm : Alarm κ η) :
    (register (timers.lift : Timers n η φ) job delayMicros).run alarm =
      monadLift ((register timers job delayMicros).run alarm) := by
  have hrate : (timers.lift : Timers n η φ).rate = monadLift timers.rate := rfl
  have hstart (handle : η) (ticks : UInt32) :
    (timers.lift : Timers n η φ).start handle ticks = monadLift (timers.start handle ticks) := rfl
  simp only [register, StateT.run_bind, StateT.run_get, pure_bind, StateT.run_monadLift, hrate,
    bind_pure_comp, bind_map_left, monadLift_bind, run_obtainTimer_lift]
  refine bind_congr fun hertz => bind_congr fun obtained => ?_
  obtain ⟨_ | handle, after⟩ := obtained
  · simp
  · simp only [hstart, StateT.run_bind, StateT.run_monadLift, bind_pure_comp, bind_map_left,
      monadLift_bind]
    refine bind_congr fun answer => ?_
    cases answer <;> simp

theorem run_destroy_lift (alarm : Alarm κ η) :
    (destroy (timers.lift : Timers n η φ)).run alarm =
      monadLift ((destroy timers).run alarm) := by
  cases h : alarm.timer with
  | none => simp [destroy, h]
  | some handle =>
    simp only [destroy, Timers.lift, StateT.run_bind, StateT.run_get, pure_bind, h,
      StateT.run_monadLift, bind_pure_comp, bind_map_left, monadLift_bind]
    refine bind_congr fun stopped => bind_congr fun deleted => ?_
    cases stopped.isOk && deleted.isOk <;> simp

/-- A command does the same with a facility, be it used from a smaller monad or from a larger. -/
theorem Command.run_perform_lift (c : Command κ) (alarm : Alarm κ η) :
    (c.perform (timers.lift : Timers n η φ)).run alarm =
      monadLift ((c.perform timers).run alarm) := by
  cases hrequest : c.request? alarm with
  | some request =>
    rw [run_of_request _ hrequest, run_of_request _ hrequest, run_register_lift]
    simp
  | none =>
    cases c with
    | create given =>
      cases given with
      | none => simp [Command.perform, Alarm.create]
      | some given =>
        have ht : alarm.triggered = true := by simpa [Command.request?] using hrequest
        simp [Command.perform, Alarm.create, Alarm.start, ht]
    | start given =>
      have ht : alarm.triggered = true := by simpa [Command.request?] using hrequest
      simp [Command.perform, Alarm.start, ht]
    | stop => simp [Command.perform, Alarm.stop]
    | register => cases hrequest
    | destroy => simp [Command.perform, run_destroy_lift]

end Lift

section Exec

variable {α β : Type} {alarm after : Alarm κ η} {done actions : List (Action κ η φ)}

/-- Runs a computation over a shared alarm that nobody is using; there is no result if the alarm was
found in use or is not given back. -/
def exec (f : SharedAlarmT κ η (RecordM κ η φ) α) (alarm : Alarm κ η)
    (done : List (Action κ η φ)) : Option (α × Alarm κ η × List (Action κ η φ)) :=
  match (f.run (some alarm)).run.run done with
  | (.ok (a, some after), actions) => some (a, after, actions)
  | _ => none

theorem exec_pure (a : α) : exec (pure a) alarm done = some (a, alarm, done) := rfl

theorem exec_bind {f : SharedAlarmT κ η (RecordM κ η φ) α} {a : α}
    (h : exec f alarm done = some (a, after, actions))
    (g : α → SharedAlarmT κ η (RecordM κ η φ) β) :
    exec (f >>= g) alarm done = exec (g a) after actions := by
  unfold exec at h ⊢
  split at h
  · next hrun =>
    cases h
    simp only [StateT.run_bind, ExceptT.run_bind]
    rw [hrun]
    rfl
  · cases h

/-- A use of the alarm gives it back. -/
theorem exec_use {f : StateT (Alarm κ η) (SharedAlarmT κ η (RecordM κ η φ)) α}
    {x : RecordM κ η φ (α × Alarm κ η)} (h : f.run alarm = monadLift x) :
    exec (SharedAlarm.use f) alarm done =
      some ((x.run done).1.1, (x.run done).1.2, (x.run done).2) := by
  unfold exec
  have hrun : ((SharedAlarm.use f).run (some alarm)).run.run done =
      (.ok ((x.run done).1.1, some (x.run done).1.2), (x.run done).2) := by
    simp only [SharedAlarm.use, StateT.run_bind, StateT.run_get, StateT.run_set, pure_bind, h]
    rfl
  rw [hrun]

end Exec

/-- Asks a shared alarm. -/
def Command.ask (b : Behaviour κ η φ) (c : Command κ) : SharedAlarmT κ η (RecordM κ η φ) Reply :=
  SharedAlarm.use (c.perform b.timers.lift)

section Uses

variable (b : Behaviour κ η φ) (s : Course κ η φ)

/-- What is asked of a shared alarm is one step of its course. -/
theorem exec_ask (c : Command κ) :
    ∃ reply, exec (c.ask b) s.alarm s.actions =
      some (reply, (s.step b (.ask c)).alarm, (s.step b (.ask c)).actions) :=
  ⟨_, exec_use (Command.run_perform_lift b.timers c s.alarm)⟩

/-- So is an expiry. -/
theorem exec_expire :
    exec (SharedAlarm.use Alarm.expire) s.alarm s.actions =
      some (s.alarm.job, (s.step b .expire).alarm, (s.step b .expire).actions) := rfl

/-- So is a settlement. -/
theorem exec_settle :
    exec (SharedAlarm.use Alarm.settle) s.alarm s.actions =
      some ((), (s.step b .settle).alarm, (s.step b .settle).actions) := rfl

/-- A job that is handed out, whatever it does, begins to run with the lock free. -/
theorem exec_fire {job : κ} (h : s.alarm.job = some job)
    (run : κ → SharedAlarmT κ η (RecordM κ η φ) Unit) :
    exec (SharedAlarm.fire run) s.alarm s.actions =
      exec (run job >>= fun _ => SharedAlarm.use Alarm.settle) (s.step b .expire).alarm
        (s.step b .expire).actions := by
  rw [SharedAlarm.fire, exec_bind (exec_expire b s), h]

end Uses

/-! ### Contexts -/

/-- What a context does with a shared alarm: it asks for one thing after the other, each chosen by
the replies so far, and serves expiries of the timer. -/
inductive Routine (κ : Type)
  | done
  | ask (c : Command κ) (next : Reply → Routine κ)
  /-- An expiry.  The job that is handed out does what is given for it, which may hold further
  expiries. -/
  | fire (jobs : κ → Routine κ) (next : Routine κ)

/-- Does what there is to do. -/
def Routine.perform (b : Behaviour κ η φ) : Routine κ → SharedAlarmT κ η (RecordM κ η φ) Unit
  | done => return ()
  | ask c next => do
    let reply ← c.ask b
    (next reply).perform b
  | fire jobs next => do
    SharedAlarm.fire fun job => (jobs job).perform b
    next.perform b

/-- The uses of a shared alarm that a context has before it. -/
inductive Agenda (κ : Type)
  | done
  | ask (c : Command κ) (next : Reply → Agenda κ)
  | expire (next : Option κ → Agenda κ)
  | settle (next : Agenda κ)

namespace Agenda

/-- Makes all the uses. -/
def perform (b : Behaviour κ η φ) : Agenda κ → SharedAlarmT κ η (RecordM κ η φ) Unit
  | done => return ()
  | ask c next => do
    let reply ← c.ask b
    (next reply).perform b
  | expire next => do
    let job ← SharedAlarm.use Alarm.expire
    (next job).perform b
  | settle next => do
    SharedAlarm.use Alarm.settle
    next.perform b

/-- The operation that the next use performs. -/
def operation? : Agenda κ → Option (Operation κ)
  | done => none
  | ask c _ => some (.ask c)
  | expire _ => some .expire
  | settle _ => some .settle

/-- Makes the next use; the uses that are left come back. -/
def use (b : Behaviour κ η φ) : Agenda κ → SharedAlarmT κ η (RecordM κ η φ) (Agenda κ)
  | done => return .done
  | ask c next => return next (← c.ask b)
  | expire next => return next (← SharedAlarm.use Alarm.expire)
  | settle next => do
    SharedAlarm.use Alarm.settle
    return next

end Agenda

/-- The uses that a routine is made of, with others to follow. -/
def Routine.agenda : Routine κ → Agenda κ → Agenda κ
  | done, rest => rest
  | ask c next, rest => .ask c fun reply => (next reply).agenda rest
  | fire jobs next, rest => .expire fun job =>
    match job with
    | some job => (jobs job).agenda (.settle (next.agenda rest))
    | none => .settle (next.agenda rest)

/-- A routine does no more than make its uses, and its jobs run between them. -/
theorem Routine.perform_agenda (b : Behaviour κ η φ) (routine : Routine κ) (rest : Agenda κ) :
    (routine.agenda rest).perform b = routine.perform b >>= fun _ => rest.perform b := by
  induction routine generalizing rest with
  | done => rw [agenda, perform, pure_bind]
  | ask c next ih => simp [agenda, perform, Agenda.perform, ih]
  | fire jobs next ihjobs ih =>
    simp only [agenda, perform, Agenda.perform, SharedAlarm.fire, bind_assoc]
    refine bind_congr fun job => ?_
    cases job with
    | none => simp [Agenda.perform, ih]
    | some job => simp [Agenda.perform, ihjobs, ih]

theorem Routine.perform_agenda_done (b : Behaviour κ η φ) (routine : Routine κ) :
    (routine.agenda .done).perform b = routine.perform b := by
  rw [routine.perform_agenda]
  exact bind_pure_unit

/-- Contexts that share an alarm: the uses that each has before it, and the operations that were
performed so far. -/
structure Contexts (κ : Type) where
  agendas : List (Agenda κ)
  operations : List (Operation κ) := []

/-- One context makes its next use, if there is any. -/
def turn (b : Behaviour κ η φ) (i : ℕ) :
    StateT (Contexts κ) (SharedAlarmT κ η (RecordM κ η φ)) Unit := do
  let contexts ← get
  if let some agenda := contexts.agendas[i]? then
    if let some operation := agenda.operation? then
      let rest ← agenda.use b
      set (Contexts.mk (contexts.agendas.set i rest) (contexts.operations ++ [operation]))

/-- Contexts take turns. -/
def interleave (b : Behaviour κ η φ) (schedule : List ℕ) :
    StateT (Contexts κ) (SharedAlarmT κ η (RecordM κ η φ)) Unit :=
  forM schedule (turn b)

/-! ### Interleavings -/

/-- What may be left of an agenda after its next use. -/
inductive Agenda.Step : Agenda κ → Operation κ → Agenda κ → Prop
  | ask (c : Command κ) (next : Reply → Agenda κ) (reply : Reply) :
      Step (.ask c next) (.ask c) (next reply)
  | expire (next : Option κ → Agenda κ) (job : Option κ) : Step (.expire next) .expire (next job)
  | settle (next : Agenda κ) : Step (.settle next) .settle next

/-- What a turn does to the contexts. -/
inductive Contexts.Turn (contexts : Contexts κ) : Contexts κ → Prop
  | idle : Turn contexts contexts
  | used {i : ℕ} {agenda rest : Agenda κ} {operation : Operation κ} :
      contexts.agendas[i]? = some agenda → agenda.Step operation rest →
      Turn contexts ⟨contexts.agendas.set i rest, contexts.operations ++ [operation]⟩

section Interleavings

variable (b : Behaviour κ η φ)

/-- The next use of an agenda finds the lock free, and is one step of the course. -/
theorem exec_agenda_use (s : Course κ η φ) {agenda : Agenda κ} {operation : Operation κ}
    (h : agenda.operation? = some operation) :
    ∃ rest, exec (agenda.use b) s.alarm s.actions =
        some (rest, (s.step b operation).alarm, (s.step b operation).actions) ∧
      agenda.Step operation rest := by
  cases agenda with
  | done => cases h
  | ask c next =>
    cases h
    obtain ⟨reply, hask⟩ := exec_ask b s c
    exact ⟨next reply, exec_bind hask _, .ask c next reply⟩
  | expire next =>
    cases h
    exact ⟨next s.alarm.job, exec_bind (exec_expire b s) _, .expire next s.alarm.job⟩
  | settle next =>
    cases h
    exact ⟨next, exec_bind (exec_settle b s) _, .settle next⟩

/-- A context that makes all its uses finds the lock free each time. -/
theorem isSome_exec_perform (agenda : Agenda κ) (s : Course κ η φ) :
    (exec (agenda.perform b) s.alarm s.actions).isSome := by
  induction agenda generalizing s with
  | done => rfl
  | ask c next ih =>
    obtain ⟨reply, hask⟩ := exec_ask b s c
    rw [Agenda.perform, exec_bind hask]
    exact ih reply _
  | expire next ih =>
    rw [Agenda.perform, exec_bind (exec_expire b s)]
    exact ih s.alarm.job _
  | settle next ih =>
    rw [Agenda.perform, exec_bind (exec_settle b s)]
    exact ih _

variable (config : Config)

theorem exec_turn (i : ℕ) (contexts : Contexts κ) :
    let s := course b config contexts.operations
    ∃ contexts', contexts.Turn contexts' ∧
      exec ((turn b i).run contexts) s.alarm s.actions =
        some (((), contexts'), (course b config contexts'.operations).alarm,
          (course b config contexts'.operations).actions) := by
  intro s
  cases hagenda : contexts.agendas[i]? with
  | none => exact ⟨contexts, .idle, by simp [turn, hagenda, exec_pure, s]⟩
  | some agenda =>
    cases hoperation : agenda.operation? with
    | none => exact ⟨contexts, .idle, by simp [turn, hagenda, hoperation, exec_pure, s]⟩
    | some operation =>
      obtain ⟨rest, huse, hstep⟩ := exec_agenda_use b s hoperation
      refine ⟨_, .used hagenda hstep, ?_⟩
      rw [course_concat]
      have hturn : (turn b i).run contexts = agenda.use b >>= fun rest =>
          pure ((), ⟨contexts.agendas.set i rest, contexts.operations ++ [operation]⟩) := by
        simp [turn, hagenda, hoperation]
      rw [hturn, exec_bind huse]
      rfl

/-- What every turn keeps, an interleaving keeps.  Nobody ever finds the lock taken, and the alarm
takes the course of the operations that are performed. -/
theorem exec_interleave {P : Contexts κ → Prop}
    (hturn : ∀ contexts contexts', P contexts → contexts.Turn contexts' → P contexts')
    (schedule : List ℕ) (contexts : Contexts κ) (h : P contexts) :
    let s := course b config contexts.operations
    ∃ contexts', P contexts' ∧
      exec ((interleave b schedule).run contexts) s.alarm s.actions =
        some (((), contexts'), (course b config contexts'.operations).alarm,
          (course b config contexts'.operations).actions) := by
  induction schedule generalizing contexts with
  | nil => exact ⟨contexts, h, rfl⟩
  | cons i schedule ih =>
    obtain ⟨between, hbetween, hrun⟩ := exec_turn b config i contexts
    obtain ⟨contexts', h', hrest⟩ := ih between (hturn _ _ h hbetween)
    refine ⟨contexts', h', ?_⟩
    rw [← hrest, interleave, List.forM_cons, StateT.run_bind]
    exact exec_bind hrun _

end Interleavings

/-! ### Settlements -/

/-- Every expiry was followed by a settlement. -/
def Settled (operations : List (Operation κ)) : Prop :=
  ∀ earlier later, operations = earlier ++ .expire :: later → .settle ∈ later

theorem settled_nil : Settled ([] : List (Operation κ)) := by
  intro earlier later h
  simp at h

theorem settled_concat {operations : List (Operation κ)} {operation : Operation κ}
    (h : operation = .settle ∨ Settled operations ∧ operation ≠ .expire) :
    Settled (operations ++ [operation]) := by
  intro earlier later heq
  rcases (concat_eq_split_iff ..).1 heq with ⟨-, -, rfl⟩ | ⟨between, rfl, rfl⟩
  · simp at h
  · rcases h with rfl | ⟨hsettled, -⟩
    · simp
    · exact List.mem_append_left _ (hsettled earlier between rfl)

/-- The calls of a course are those of its operations. -/
theorem map_operation_calls (b : Behaviour κ η φ) (config : Config)
    (operations : List (Operation κ)) :
    (course b config operations).calls.map Call.operation = operations := by
  induction operations using List.reverseRecOn with
  | nil => rfl
  | append_singleton operations operation ih =>
    obtain ⟨actions, answer, after, hstep, -⟩ :=
      (course b config operations).exists_step_eq b operation
    rw [course_concat, hstep, record_calls, List.map_append, ih]
    rfl

/-- A dispatch that stands has not been settled. -/
theorem not_fired_of_settled (b : Behaviour κ η φ) (config : Config)
    {operations : List (Operation κ)} (h : Settled operations) :
    (course b config operations).alarm.phase ≠ .fired := by
  intro hfired
  obtain ⟨earlier, call, later, hcalls, ⟨hexpire, -⟩, hidles⟩ :=
    (Course.fired_iff b config operations).1 hfired
  have hoperations : operations =
      earlier.map Call.operation ++ .expire :: later.map Call.operation := by
    rw [← map_operation_calls b config operations, hcalls, List.map_append, List.map_cons, hexpire]
  obtain ⟨d, hd, hsettle⟩ := List.mem_map.1 (h _ _ hoperations)
  exact (hidles d hd).2.2.1 hsettle

/-- A settlement leaves an armed alarm as it is. -/
theorem step_settle_of_armed (b : Behaviour κ η φ) {s : Course κ η φ}
    (h : s.alarm.phase = .armed) : (s.step b .settle).alarm = s.alarm := by
  obtain ⟨⟨config, timer, job, triggered, phase, created⟩, actions, calls⟩ := s
  obtain rfl : phase = .armed := h
  rfl

namespace Agenda

/-- A settlement is still to come, whatever the replies. -/
def Owes : Agenda κ → Prop
  | done => False
  | ask _ next => ∀ reply, (next reply).Owes
  | expire next => ∀ job, (next job).Owes
  | settle _ => True

/-- Behind every expiry there is a settlement. -/
def Fair : Agenda κ → Prop
  | done => True
  | ask _ next => ∀ reply, (next reply).Fair
  | expire next => ∀ job, (next job).Owes ∧ (next job).Fair
  | settle next => next.Fair

variable {agenda rest : Agenda κ} {operation : Operation κ}

theorem Step.fair (h : agenda.Step operation rest) (hfair : agenda.Fair) : rest.Fair := by
  cases h with
  | ask c next reply => exact hfair reply
  | expire next job => exact (hfair job).2
  | settle next => exact hfair

/-- Only a settlement pays what is owed. -/
theorem Step.owes (h : agenda.Step operation rest) (howes : agenda.Owes) :
    operation = .settle ∨ rest.Owes := by
  cases h with
  | ask c next reply => exact .inr (howes reply)
  | expire next job => exact .inr (howes job)
  | settle next => exact .inl rfl

/-- An expiry is what a settlement is owed for. -/
theorem Step.owes_of_expire (h : agenda.Step .expire rest) (hfair : agenda.Fair) : rest.Owes := by
  cases h with
  | expire next job => exact (hfair job).1

end Agenda

section Routines

variable (routine : Routine κ) {rest : Agenda κ}

theorem Routine.owes_agenda (h : rest.Owes) : (routine.agenda rest).Owes := by
  induction routine generalizing rest with
  | done => exact h
  | ask c next ih => exact fun reply => ih reply h
  | fire jobs next ihjobs ih =>
    rw [agenda]
    rintro (_ | job)
    · exact trivial
    · exact ihjobs job trivial

theorem Routine.fair_agenda (h : rest.Fair) : (routine.agenda rest).Fair := by
  induction routine generalizing rest with
  | done => exact h
  | ask c next ih => exact fun reply => ih reply h
  | fire jobs next ihjobs ih =>
    have hsettle : (Agenda.settle (next.agenda rest)).Fair := ih h
    rw [agenda]
    rintro (_ | job)
    · exact ⟨trivial, hsettle⟩
    · exact ⟨(jobs job).owes_agenda trivial, ihjobs job hsettle⟩

end Routines

/-- Whenever an expiry is without its settlement, some context owes it. -/
structure Contexts.Fair (contexts : Contexts κ) : Prop where
  agendas : ∀ agenda ∈ contexts.agendas, agenda.Fair
  owed : Settled contexts.operations ∨ ∃ agenda ∈ contexts.agendas, agenda.Owes

theorem Contexts.Turn.fair {contexts contexts' : Contexts κ} (h : contexts.Turn contexts')
    (hfair : contexts.Fair) : contexts'.Fair := by
  cases h with
  | idle => exact hfair
  | @used i agenda rest operation hagenda hstep =>
    have hown : agenda.Fair := hfair.agendas agenda (List.mem_of_getElem? hagenda)
    have hrest : rest ∈ contexts.agendas.set i rest := by
      obtain ⟨hi, -⟩ := List.getElem?_eq_some_iff.1 hagenda
      exact List.mem_set hi rest
    refine ⟨?_, ?_⟩
    · intro other hother
      rcases List.mem_or_eq_of_mem_set hother with hother | rfl
      · exact hfair.agendas other hother
      · exact hstep.fair hown
    · by_cases hexpire : operation = .expire
      · subst hexpire
        exact .inr ⟨rest, hrest, hstep.owes_of_expire hown⟩
      · rcases hfair.owed with hsettled | ⟨other, hother, howes⟩
        · exact .inl (settled_concat (.inr ⟨hsettled, hexpire⟩))
        · obtain ⟨j, hj⟩ := List.mem_iff_getElem?.1 hother
          by_cases hij : i = j
          · obtain rfl : agenda = other := Option.some.inj (hagenda.symm.trans (hij ▸ hj))
            rcases hstep.owes howes with hsettle | howes
            · exact .inl (settled_concat (.inl hsettle))
            · exact .inr ⟨rest, hrest, howes⟩
          · have hkept : (contexts.agendas.set i rest)[j]? = some other := by
              rw [List.getElem?_set_ne hij, hj]
            exact .inr ⟨other, List.mem_of_getElem? hkept, howes⟩

/-- Contexts with routines before them owe nothing at first. -/
theorem Contexts.fair_routines (routines : List (Routine κ)) :
    Contexts.Fair ⟨routines.map (·.agenda .done), []⟩ := by
  refine ⟨?_, .inl settled_nil⟩
  intro agenda hagenda
  obtain ⟨routine, -, rfl⟩ := List.mem_map.1 hagenda
  exact routine.fair_agenda trivial

/-- When all contexts are done, every expiry has been settled. -/
theorem Contexts.Fair.settled {contexts : Contexts κ} (h : contexts.Fair)
    (hdone : ∀ agenda ∈ contexts.agendas, agenda = .done) : Settled contexts.operations := by
  rcases h.owed with hsettled | ⟨agenda, hagenda, howes⟩
  · exact hsettled
  · rw [hdone agenda hagenda] at howes
    exact howes.elim

/-- **The law of re-entrant use.**  Whatever the facility does, let any number of contexts use an
alarm, each with jobs that use it in turn, to any depth, and let their uses be interleaved in any
way.  A job begins to run with the lock free; a routine, with its jobs, is no more than its uses;
and nobody ever finds the lock taken.  Once every expiry has been settled the alarm is not fired: it
is armed exactly if the last registration was followed neither by an expiry nor by the end of the
timer, and its job is then the one that was registered.  This is so at the latest when all contexts
are done.  A settlement leaves an alarm alone that is armed. -/
theorem reentrancy_sound (b : Behaviour κ η φ) (config : Config) (routines : List (Routine κ))
    (schedule : List ℕ) :
    (∀ (s : Course κ η φ) job (run : κ → SharedAlarmT κ η (RecordM κ η φ) Unit),
      s.alarm.job = some job → exec (SharedAlarm.fire run) s.alarm s.actions =
        exec (run job >>= fun _ => SharedAlarm.use Alarm.settle) (s.step b .expire).alarm
          (s.step b .expire).actions) ∧
    (∀ routine : Routine κ, (routine.agenda .done).perform b = routine.perform b ∧
      ∀ s : Course κ η φ, (exec (routine.perform b) s.alarm s.actions).isSome) ∧
    ∃ contexts : Contexts κ,
      let s := course b config contexts.operations
      exec ((interleave b schedule).run ⟨routines.map (·.agenda .done), []⟩) { config } [] =
          some (((), contexts), s.alarm, s.actions) ∧
        (Settled contexts.operations → s.alarm.phase ≠ .fired) ∧
        (s.alarm.phase = .armed ↔ RegistrationStands s.calls) ∧
        s.alarm.job = lastRegistered s.calls ∧
        ((∀ agenda ∈ contexts.agendas, agenda = .done) → Settled contexts.operations) ∧
        ∀ earlier later, contexts.operations = earlier ++ .settle :: later →
          (course b config earlier).alarm.phase = .armed →
            (course b config (earlier ++ [.settle])).alarm = (course b config earlier).alarm := by
  obtain ⟨contexts, hfair, hrun⟩ := exec_interleave b config
    (fun _ _ hfair hturn => hturn.fair hfair) schedule _ (Contexts.fair_routines routines)
  have hs := Course.sound b config contexts.operations
  refine ⟨fun s _ run hjob => exec_fire b s hjob run,
    fun routine => ⟨routine.perform_agenda_done b, fun s => ?_⟩,
    contexts, hrun, not_fired_of_settled b config, hs.armed, hs.job, hfair.settled, ?_⟩
  · rw [← routine.perform_agenda_done]
    exact isSome_exec_perform b _ s
  · intro earlier later _ harmed
    rw [course_concat]
    exact step_settle_of_armed b harmed

end ElementHost.Alarm
