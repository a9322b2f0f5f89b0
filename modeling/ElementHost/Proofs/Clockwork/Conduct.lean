import ElementHost.Proofs.Clockwork.Basic

/-!
# Everything that can be done with a clockwork

Beside the commands, whoever uses an alarm may expire and settle it by hand, and may run its job as
the timer would, with or without the lock.  All of it may come from outside and from the jobs.

* `Conduct`, what the code around an alarm does with it, and `Conduct.perform`;
* `Move`, `afterMoves`, the clockwork after some moves, if it gets through them;
* `Conduct.play`, `move`, the same without the lock and the ways to fail, and
  `afterMoves_eq_foldl`;
* `Conserved`, a property that nobody can end.

A job that is run under the lock cannot use the alarm (`exec_trigger_eq_none`), so it has no conduct
of its own.
-/

namespace ElementHost

open Alarm (Command Reply)
open Countdown (Scene SceneM)

namespace Clockwork

variable {κ : Type}

/-- What the code around an alarm does with it, one thing after the other, each chosen by what it
has been told so far. -/
inductive Conduct (κ : Type)
  | done
  | ask (c : Command κ) (next : Reply → Conduct κ)
  /-- Has the registered job handed out. -/
  | expire (next : Option κ → Conduct κ)
  | settle (next : Conduct κ)
  /-- Runs the registered job under the lock. -/
  | trigger (next : Conduct κ)
  /-- Runs the registered job, as an expiry does; the conduct of each job is given. -/
  | fire (jobs : κ → Conduct κ) (next : Conduct κ)

namespace Conduct

/-- Does what there is to do.  A job that begins to run is written down. -/
def perform : Conduct κ → ClockworkM κ Unit
  | done => return ()
  | ask c next => do
    let reply ← Clockwork.perform c
    (next reply).perform
  | expire next => do
    let job ← SharedAlarm.use Alarm.expire
    (next job).perform
  | settle next => do
    SharedAlarm.use Alarm.settle
    next.perform
  | trigger next => do
    SharedAlarm.use (Alarm.trigger fun job => liftM (note (.ran · job) : ClockworkM κ Unit))
    next.perform
  | fire jobs next => do
    SharedAlarm.fire fun job => do
      note (.ran · job)
      (jobs job).perform
    next.perform

/-- What the conduct comes to: nobody finds the lock taken, and no command fails. -/
def play : Conduct κ → Clockwork κ → Clockwork κ
  | done, s => s
  | ask c next, s => (next (c.answer keeper s).1).play (c.answer keeper s).2
  | expire next, s => (next s.alarm.job).play s.handOut
  | settle next, s => next.play s.settle
  | trigger next, s => next.play (s.dispatch fun _ s => s)
  | fire jobs next, s => next.play (s.dispatch fun job s => (jobs job).play s)

end Conduct

/-- Something that happens to a clockwork. -/
inductive Move (κ : Type)
  | act (conduct : Conduct κ)
  | advance (micros : Nat)
  /-- One poll of the task, with the conduct of the jobs in it. -/
  | poll (jobs : κ → Conduct κ)

/-- Makes a move. -/
def Move.perform : Move κ → ClockworkM κ Unit
  | act conduct => conduct.perform
  | advance micros => liftM (Scene.advance micros : SceneM (Event κ) Unit)
  | poll jobs => Scene.poll (Event κ) <| SharedAlarm.fire fun job => do
    note (.ran · job)
    (jobs job).perform

/-- The clockwork after some moves, from the beginning. -/
def afterMoves (config : Alarm.Config) (moves : List (Move κ)) : Option (Clockwork κ) :=
  moves.foldlM (fun s move => (exec move.perform s).map Prod.snd) (init config)

/-- The clockwork after a move. -/
def move (s : Clockwork κ) : Move κ → Clockwork κ
  | .act conduct => conduct.play s
  | .advance micros => { s with now := s.now + micros }
  | .poll jobs =>
    if s.task.isDue s.now then (s.dispatch fun job s => (jobs job).play s).look s.now .idle
    else s.look s.now s.task

theorem move_poll_of_due {s : Clockwork κ} (h : s.task.isDue s.now = true)
    (jobs : κ → Conduct κ) :
    s.move (.poll jobs) = (s.dispatch fun job s => (jobs job).play s).look s.now .idle := by
  rw [move, if_pos h]

theorem move_poll_of_not_due {s : Clockwork κ} (h : s.task.isDue s.now = false)
    (jobs : κ → Conduct κ) : s.move (.poll jobs) = s.look s.now s.task := by
  rw [move, h]
  rfl

/-- A job may be handed out any number of times before it is run. -/
theorem dispatch_handOut (run : κ → Clockwork κ → Clockwork κ) (s : Clockwork κ) :
    s.handOut.dispatch run = s.dispatch run := by
  have hjob : s.handOut.alarm.job = s.alarm.job := rfl
  rw [dispatch, hjob, dispatch]
  cases s.alarm.job with
  | none => rfl
  | some job => rfl

/-- A job that does anything under the lock fails. -/
theorem exec_trigger_eq_none {s : Clockwork κ} {job : κ} (hjob : s.alarm.job = some job)
    {conduct : Conduct κ} (h : conduct ≠ .done) :
    exec (SharedAlarm.use (Alarm.trigger fun _ => liftM conduct.perform)) s = none := by
  obtain ⟨scene, alarm, service, mailbox⟩ := s
  obtain ⟨config, timer, registered, triggered, phase, created⟩ := alarm
  obtain rfl : registered = some job := hjob
  cases conduct with
  | done => exact absurd rfl h
  | ask c next => rfl
  | expire next => rfl
  | settle next => rfl
  | trigger next => rfl
  | fire jobs next => rfl

/-! ### What everybody conserves -/

/-- A property that no conduct ends. -/
structure Conserved (P : Clockwork κ → Prop) : Prop where
  commands : keeper.Keeps P
  handOut : ∀ s, P s → P s.handOut
  begin : ∀ job s, P s → P (s.begin job)
  settle : ∀ s, P s → P s.settle

namespace Conserved

variable {P : Clockwork κ → Prop}

theorem dispatch (h : Conserved P) {run : κ → Clockwork κ → Clockwork κ}
    (hrun : ∀ job s, P s → P (run job s)) {s : Clockwork κ} (hs : P s) : P (s.dispatch run) := by
  have hout := h.handOut s hs
  rw [Clockwork.handOut] at hout
  rw [Clockwork.dispatch]
  cases hjob : s.alarm.job with
  | none =>
    rw [hjob] at hout
    exact hout
  | some job => exact h.settle _ (hrun job _ (h.begin job s hs))

theorem play (h : Conserved P) (conduct : Conduct κ) {s : Clockwork κ} (hs : P s) :
    P (conduct.play s) := by
  induction conduct generalizing s with
  | done => exact hs
  | ask c next ih => exact ih _ (h.commands.answer c s hs)
  | expire next ih => exact ih _ (h.handOut s hs)
  | settle next ih => exact ih (h.settle s hs)
  | trigger next ih => exact ih (h.dispatch (fun _ _ hs => hs) hs)
  | fire jobs next ihjobs ih => exact ih (h.dispatch (fun job _ hs => ihjobs job hs) hs)

theorem dispatch_play (h : Conserved P) (jobs : κ → Conduct κ) {s : Clockwork κ} (hs : P s) :
    P (s.dispatch fun job s => (jobs job).play s) :=
  h.dispatch (fun job _ hs => h.play (jobs job) hs) hs

end Conserved

theorem conserved_lockstep : Conserved (κ := κ) Lockstep :=
  ⟨keeps_lockstep, fun _ h => h, fun _ _ h => h, fun _ h => h⟩

theorem conserved_scene (s₀ : Clockwork κ) :
    Conserved fun s : Clockwork κ => s.now = s₀.now ∧ s.task = s₀.task :=
  ⟨keeps_scene s₀, fun _ h => h, fun _ _ h => h, fun _ h => h⟩

/-! ### Runs -/

/-- Running the job under the lock is an expiry whose job does nothing. -/
theorem exec_trigger (s : Clockwork κ) :
    exec (SharedAlarm.use
      (Alarm.trigger fun job => liftM (note (.ran · job) : ClockworkM κ Unit))) s =
        some ((), s.dispatch fun _ s => s) := by
  obtain ⟨scene, ⟨config, timer, job, triggered, phase, created⟩, service, mailbox⟩ := s
  cases job <;> rfl

theorem exec_conduct {s : Clockwork κ} (h : s.Lockstep) (conduct : Conduct κ) :
    exec conduct.perform s = some ((), conduct.play s) := by
  induction conduct generalizing s with
  | done => rfl
  | ask c next ih =>
    rw [Conduct.perform, exec_bind (exec_perform h c)]
    exact ih _ (keeps_lockstep.answer c s h)
  | expire next ih =>
    have hexpire : exec (SharedAlarm.use Alarm.expire) s = some (s.alarm.job, s.handOut) := rfl
    rw [Conduct.perform, exec_bind hexpire]
    exact ih _ h
  | settle next ih =>
    have hsettle : exec (SharedAlarm.use Alarm.settle) s = some ((), s.settle) := rfl
    rw [Conduct.perform, exec_bind hsettle]
    exact ih h
  | trigger next ih =>
    rw [Conduct.perform, exec_bind (exec_trigger s)]
    exact ih (conserved_lockstep.dispatch (fun _ _ h => h) h)
  | fire jobs next ihjobs ih =>
    have hbegin : ∀ job, (s.begin job).Lockstep := fun _ => h
    have hfire := exec_dispatch fun job => ihjobs job (hbegin job)
    rw [Conduct.perform, exec_bind hfire]
    exact ih (conserved_lockstep.dispatch_play jobs h)

theorem exec_move {s : Clockwork κ} (h : s.Lockstep) (move : Move κ) :
    exec move.perform s = some ((), s.move move) := by
  cases move with
  | act conduct => exact exec_conduct h conduct
  | advance micros => rfl
  | poll jobs =>
    have hbegin : ∀ job, (s.begin job).Lockstep := fun _ => h
    exact exec_scenePoll (exec_dispatch fun job => exec_conduct (hbegin job) (jobs job))

theorem Lockstep.move {s : Clockwork κ} (h : s.Lockstep) (move : Move κ) :
    (s.move move).Lockstep := by
  cases move with
  | act conduct => exact conserved_lockstep.play conduct h
  | advance micros => exact h
  | poll jobs =>
    rw [Clockwork.move]
    split
    · exact conserved_lockstep.dispatch_play jobs h
    · exact h

/-- A clockwork gets through all moves. -/
theorem afterMoves_eq_foldl (config : Alarm.Config) (moves : List (Move κ)) :
    afterMoves config moves = some (moves.foldl move (init config)) :=
  foldlM_exec (fun _ move h => ⟨exec_move h move, h.move move⟩) moves rfl

end Clockwork

end ElementHost
