import ElementHost.Alarm.Shared
import ElementHost.Proofs.Alarm.Command
import ElementHost.Proofs.Countdown.Scene
import ElementHost.Proofs.Moments
import ElementHost.Proofs.Script

/-!
# An alarm driven by the countdown task

A shared alarm whose timer is the one of the countdown facility, and whose expiry is what the task
of that facility runs: the whole of it is a clockwork.  Commands come from outside or from the jobs
themselves, the clock moves, and the task is polled, in any order.

* `Clockwork`, and `Clockwork.perform`, a command with a note of what came of it;
* `Clockwork.fire`, the expiry with the jobs it runs;
* `Step`, `after`, the clockwork after some steps, if it gets through them;
* `exec_dispatch`, `exec_scenePoll`, an expiry and a poll, given what the jobs do;
* `step`, `run`, the same without the lock and the ways to fail, and `after_eq_run`;
* `keeps_of`, `expire_induction`, what it takes for a property to be kept.

The alarm and its facility agree on whether the timer exists (`Lockstep`).  This is why no command
fails and why nobody finds the lock taken.
-/

namespace ElementHost

open Alarm (Command Keeper Reply)
open Countdown (ServiceM Mailbox Refusal Scene SceneM Service Task)

/-- What happens in a clockwork. -/
inductive Clockwork.Event (κ : Type)
  | registered (time : Nat) (job : κ)
  | destroyed (time : Nat)
  | ran (time : Nat) (job : κ)
  deriving DecidableEq

/-- An alarm, the facility behind it, and their surroundings. -/
structure Clockwork (κ : Type) extends Scene (Clockwork.Event κ) where
  alarm : Alarm κ Unit
  service : Service := {}
  mailbox : Mailbox := {}

/-- Computations in a clockwork. -/
abbrev ClockworkM (κ : Type) := SharedAlarmT κ Unit (ServiceM (Clockwork.Event κ))

namespace Clockwork

variable {κ : Type}

/-- The facility of the timer. -/
def timers : Timers (ClockworkM κ) Unit Refusal :=
  (Countdown.timers : Timers (ServiceM (Event κ)) Unit Refusal).lift

/-- Writes down what happens now. -/
def note (event : Nat → Event κ) : ClockworkM κ Unit :=
  liftM (Scene.note event : SceneM (Event κ) Unit)

/-- Asks the alarm, and writes down a registration or the end of the timer. -/
def perform (c : Command κ) : ClockworkM κ Reply := do
  let before ← SharedAlarm.use get
  let reply ← SharedAlarm.use (c.perform timers)
  let after ← SharedAlarm.use get
  if reply.isOk then
    if let some (job, _) := c.request? before then
      note (.registered · job)
  if before.timer.isSome && after.timer.isNone then
    note .destroyed
  return reply

/-- What the jobs of an alarm do: each asks for something in turn. -/
abbrev Jobs (κ : Type) := κ → Script (Command κ) Reply

/-- The expiry: the registered job is written down and does what it does. -/
def fire (jobs : Jobs κ) : ClockworkM κ Unit :=
  SharedAlarm.fire fun job => do
    note (.ran · job)
    (jobs job).run perform

/-- Something that happens to a clockwork. -/
inductive Step (κ : Type)
  | ask (c : Command κ)
  | advance (micros : Nat)
  /-- One poll of the task, with what the jobs do in it. -/
  | poll (jobs : Jobs κ)

/-- Performs a step. -/
def Step.perform : Step κ → ClockworkM κ Unit
  | ask c => discard (Clockwork.perform c)
  | advance micros => liftM (Scene.advance micros : SceneM (Event κ) Unit)
  | poll jobs => Scene.poll (Event κ) (fire jobs)

/-- Runs a computation; there is no result if the lock was found taken or is never released. -/
def exec {α : Type} (f : ClockworkM κ α) (s : Clockwork κ) : Option (α × Clockwork κ) :=
  match (((f.run (some s.alarm)).run.run s.service).run s.mailbox).run s.toScene with
  | (((.ok (a, some alarm), service), mailbox), scene) =>
    some (a, { scene with alarm, service, mailbox })
  | _ => none

/-- A clockwork at the beginning, with a new alarm. -/
def init (config : Alarm.Config) : Clockwork κ := { alarm := { config } }

/-- The clockwork after some steps, from the beginning. -/
def after (config : Alarm.Config) (steps : List (Step κ)) : Option (Clockwork κ) :=
  steps.foldlM (fun s step => (exec step.perform s).map Prod.snd) (init config)

theorem exec_bind {α β : Type} {f : ClockworkM κ α} {a : α} {s s' : Clockwork κ}
    (h : exec f s = some (a, s')) (g : α → ClockworkM κ β) :
    exec (f >>= g) s = exec (g a) s' := by
  unfold exec at h ⊢
  split at h
  · next hrun =>
    cases h
    simp only [StateT.run_bind, ExceptT.run_bind]
    rw [hrun]
    rfl
  · cases h

/-! ### Commands -/

/-- A clockwork in which a job has just been registered. -/
def arm (job : κ) (delayMicros : UInt32) (s : Clockwork κ) : Clockwork κ :=
  { s with
    alarm := { s.alarm with
      timer := some ()
      job := some job
      phase := .armed
      created := if s.alarm.timer.isSome then s.alarm.created else s.alarm.created + 1 }
    service := ⟨true⟩
    mailbox := ⟨some (.start (Alarm.ticksOfMicros delayMicros Countdown.tickRate))⟩
    history := .registered s.now job :: s.history }

/-- A clockwork whose timer has just been destroyed. -/
def destroyed (s : Clockwork κ) : Clockwork κ :=
  { s with
    alarm := { s.alarm with timer := none, phase := .idle }
    service := ⟨false⟩
    mailbox := ⟨some .stop⟩
    history := .destroyed s.now :: s.history }

/-- A clockwork whose alarm counts as started or not. -/
def mark (triggered : Bool) (s : Clockwork κ) : Clockwork κ :=
  { s with alarm := { s.alarm with triggered } }

/-- What the commands do to a clockwork. -/
def keeper : Keeper κ (Clockwork κ) where
  config s := s.alarm.config
  triggered s := s.alarm.triggered
  arming s := if s.alarm.phase = .armed then .replaced else .fresh
  arm := arm
  clear s := if s.alarm.timer.isSome then s.destroyed else s
  mark := mark

/-- What registering, destroying and marking keep, all commands keep. -/
theorem keeps_of {P : Clockwork κ → Prop}
    (harm : ∀ job delayMicros s, P s → P (s.arm job delayMicros))
    (hdestroyed : ∀ s, P s → P s.destroyed) (hmark : ∀ b s, P s → P (s.mark b)) :
    keeper.Keeps P := by
  refine ⟨harm, ?_, hmark⟩
  intro s h
  show P (if _ then _ else _)
  split
  · exact hdestroyed s h
  · exact h

/-- The alarm and its facility agree on whether the timer exists. -/
def Lockstep (s : Clockwork κ) : Prop := s.service.created = s.alarm.timer.isSome

theorem keeps_lockstep : (keeper (κ := κ)).Keeps Lockstep :=
  keeps_of (fun _ _ _ _ => rfl) (fun _ _ => rfl) fun _ _ h => h

/-- Commands neither move the clock nor touch the task. -/
theorem keeps_scene (s₀ : Clockwork κ) :
    (keeper (κ := κ)).Keeps fun s => s.now = s₀.now ∧ s.task = s₀.task :=
  keeps_of (fun _ _ _ h => h) (fun _ h => h) fun _ _ h => h

/-- While the alarm and its facility agree, every command succeeds. -/
theorem exec_perform {s : Clockwork κ} (h : s.Lockstep) (c : Command κ) :
    exec (perform c) s = some ((c.answer keeper s).1, (c.answer keeper s).2) := by
  obtain ⟨scene, ⟨config, timer, job, triggered, phase, created⟩, ⟨existing⟩, mailbox⟩ := s
  obtain rfl : existing = timer.isSome := h
  -- what comes of a command depends on the timer and on whether a start is in flight
  rcases c with (_ | job) | job | _ | ⟨job, delayMicros⟩ | _ <;>
    cases timer <;> cases triggered <;> rfl

/-- Performs the commands of a script. -/
def obey (script : Script (Command κ) Reply) : Clockwork κ → Clockwork κ :=
  script.final fun c => c.answer keeper

theorem exec_script {s : Clockwork κ} (h : s.Lockstep) (script : Script (Command κ) Reply) :
    exec (script.run perform) s = some ((), s.obey script) := by
  induction script generalizing s with
  | done => rfl
  | ask c next ih =>
    rw [Script.run, exec_bind (exec_perform h c), ih _ (keeps_lockstep.answer c s h)]
    rfl

/-! ### Polls -/

/-- A clockwork whose registered job has just begun to run. -/
def begin (job : κ) (s : Clockwork κ) : Clockwork κ :=
  { s with
    alarm := { s.alarm with phase := .fired }
    history := .ran s.now job :: s.history }

/-- A clockwork whose expiry has just ended. -/
def settle (s : Clockwork κ) : Clockwork κ :=
  { s with alarm := { s.alarm with
      phase := if s.alarm.phase = .fired then .idle else s.alarm.phase } }

/-- A clockwork whose registered job has just been handed out. -/
def handOut (s : Clockwork κ) : Clockwork κ :=
  { s with alarm := { s.alarm with phase := if s.alarm.job.isSome then .fired else .idle } }

/-- The expiry of a clockwork, given what each job does to it. -/
def dispatch (run : κ → Clockwork κ → Clockwork κ) (s : Clockwork κ) : Clockwork κ :=
  match s.alarm.job with
  | none => { s with alarm := { s.alarm with phase := .idle } }
  | some job => (run job (s.begin job)).settle

/-- The expiry of a clockwork. -/
def expire (jobs : Jobs κ) (s : Clockwork κ) : Clockwork κ :=
  match s.alarm.job with
  | none => { s with alarm := { s.alarm with phase := .idle } }
  | some job => ((s.begin job).obey (jobs job)).settle

/-- A clockwork whose task has just looked into the mailbox. -/
def look (now : Nat) (task : Task) (s : Clockwork κ) : Clockwork κ :=
  { s with mailbox := {}, task := task.next now s.mailbox }

/-- A clockwork whose task has just been polled. -/
def poll (jobs : Jobs κ) (s : Clockwork κ) : Clockwork κ :=
  if s.task.isDue s.now then (s.expire jobs).look s.now .idle else s.look s.now s.task

theorem expire_of_none {s : Clockwork κ} (h : s.alarm.job = none) (jobs : Jobs κ) :
    s.expire jobs = { s with alarm := { s.alarm with phase := .idle } } := by
  rw [expire, h]

theorem expire_of_some {s : Clockwork κ} {job : κ} (h : s.alarm.job = some job) (jobs : Jobs κ) :
    s.expire jobs = ((s.begin job).obey (jobs job)).settle := by
  rw [expire, h]

/-- What commands and settling keep holds after an expiry, if it holds when the job begins to run,
and without one when the alarm is idle. -/
theorem expire_induction {P : Clockwork κ → Prop} (hkeeps : keeper.Keeps P)
    (hsettle : ∀ s, P s → P s.settle) {s : Clockwork κ}
    (hidle : s.alarm.job = none → P { s with alarm := { s.alarm with phase := .idle } })
    (hbegin : ∀ job, s.alarm.job = some job → P (s.begin job)) (jobs : Jobs κ) :
    P (s.expire jobs) := by
  cases hjob : s.alarm.job with
  | none =>
    rw [expire_of_none hjob]
    exact hidle hjob
  | some job =>
    rw [expire_of_some hjob]
    exact hsettle _ (Script.final_induction hkeeps.answer (jobs job) (hbegin job hjob))

theorem poll_of_due {s : Clockwork κ} (h : s.task.isDue s.now = true) (jobs : Jobs κ) :
    s.poll jobs = (s.expire jobs).look s.now .idle := by
  rw [poll, if_pos h]

theorem poll_of_not_due {s : Clockwork κ} (h : s.task.isDue s.now = false) (jobs : Jobs κ) :
    s.poll jobs = s.look s.now s.task := by
  rw [poll, h]
  rfl

/-- The lock is free again while a job runs, so the job may do what it does at any other time. -/
theorem exec_dispatch {s : Clockwork κ} {perform : κ → ClockworkM κ Unit}
    {run : κ → Clockwork κ → Clockwork κ}
    (h : ∀ job, exec (perform job) (s.begin job) = some ((), run job (s.begin job))) :
    exec (SharedAlarm.fire fun job => do note (.ran · job); perform job) s =
      some ((), s.dispatch run) := by
  have hexpire : exec (SharedAlarm.use Alarm.expire) s = some (s.alarm.job, s.handOut) := rfl
  rw [SharedAlarm.fire, exec_bind hexpire, dispatch, handOut]
  cases s.alarm.job with
  | none => rfl
  | some job =>
    let fired : Clockwork κ := { s with alarm := { s.alarm with phase := .fired } }
    have hnote : exec (note (.ran · job)) fired = some ((), s.begin job) := rfl
    show exec ((note (.ran · job) >>= fun _ => perform job) >>= fun _ =>
      SharedAlarm.use Alarm.settle) fired = _
    rw [bind_assoc, exec_bind hnote, exec_bind (h job)]
    rfl

theorem exec_fire {s : Clockwork κ} (h : s.Lockstep) (jobs : Jobs κ) :
    exec (fire jobs) s = some ((), s.expire jobs) := by
  have hbegin : ∀ job, (s.begin job).Lockstep := fun _ => h
  exact exec_dispatch fun job => exec_script (hbegin job) (jobs job)

theorem exec_obeyNext (now : Nat) (task : Task) (s : Clockwork κ) :
    exec (task.obeyNext now : ClockworkM κ Task) s =
      some (task.next now s.mailbox, { s with mailbox := {} }) := by
  obtain ⟨scene, alarm, service, ⟨waiting⟩⟩ := s
  cases waiting <;> rfl

/-- A poll of the task, given what the expiry does. -/
theorem exec_scenePoll {s s' : Clockwork κ} {onExpiry : ClockworkM κ Unit}
    (h : exec onExpiry s = some ((), s')) :
    exec (Scene.poll (Event κ) onExpiry) s =
      some ((), if s.task.isDue s.now then s'.look s.now .idle else s.look s.now s.task) := by
  show exec (s.task.poll s.now onExpiry >>= fun task =>
    liftM (Scene.resume task : SceneM (Event κ) Unit)) s = _
  cases hdue : s.task.isDue s.now with
  | false =>
    rw [Task.poll_of_not_due hdue, exec_bind (exec_obeyNext _ _ _)]
    rfl
  | true =>
    rw [Task.poll_of_due hdue, bind_assoc, exec_bind h, exec_bind (exec_obeyNext _ _ _)]
    rfl

theorem exec_poll {s : Clockwork κ} (h : s.Lockstep) (jobs : Jobs κ) :
    exec (Step.poll jobs).perform s = some ((), s.poll jobs) :=
  exec_scenePoll (exec_fire h jobs)

/-! ### Runs -/

/-- The clockwork after a step. -/
def step (s : Clockwork κ) : Step κ → Clockwork κ
  | .ask c => (c.answer keeper s).2
  | .advance micros => { s with now := s.now + micros }
  | .poll jobs => s.poll jobs

/-- The clockwork after some steps, from the beginning. -/
def run (config : Alarm.Config) (steps : List (Step κ)) : Clockwork κ :=
  steps.foldl step (init config)

theorem run_concat (config : Alarm.Config) (steps : List (Step κ)) (step : Step κ) :
    run config (steps ++ [step]) = (run config steps).step step := by
  simp [run]

theorem exec_step {s : Clockwork κ} (h : s.Lockstep) (step : Step κ) :
    exec step.perform s = some ((), s.step step) := by
  cases step with
  | ask c =>
    show exec (perform c >>= fun _ => pure ()) s = _
    rw [exec_bind (exec_perform h c)]
    rfl
  | advance micros => rfl
  | poll jobs => exact exec_poll h jobs

/-- The clock stands still during an expiry. -/
theorem now_expire (jobs : Jobs κ) (s : Clockwork κ) : (s.expire jobs).now = s.now :=
  (expire_induction (keeps_scene s) (fun _ h => h) (fun _ => ⟨rfl, rfl⟩) (fun _ _ => ⟨rfl, rfl⟩)
    jobs).1

theorem Lockstep.expire {s : Clockwork κ} (h : s.Lockstep) (jobs : Jobs κ) :
    (s.expire jobs).Lockstep :=
  expire_induction keeps_lockstep (fun _ h => h) (fun _ => h) (fun _ _ => h) jobs

theorem Lockstep.step {s : Clockwork κ} (h : s.Lockstep) (step : Step κ) :
    (s.step step).Lockstep := by
  cases step with
  | ask c => exact keeps_lockstep.answer c s h
  | advance micros => exact h
  | poll jobs =>
    show (s.poll jobs).Lockstep
    cases hdue : s.task.isDue s.now with
    | false =>
      rw [poll_of_not_due hdue]
      exact h
    | true =>
      rw [poll_of_due hdue]
      exact h.expire jobs

/-- Steps that keep the lockstep, and succeed in it, succeed one after the other. -/
theorem foldlM_exec {α : Type} {perform : α → ClockworkM κ Unit}
    {next : Clockwork κ → α → Clockwork κ}
    (hnext : ∀ s a, Lockstep s → exec (perform a) s = some ((), next s a) ∧ (next s a).Lockstep)
    (as : List α) {s : Clockwork κ} (h : s.Lockstep) :
    as.foldlM (fun s a => (exec (perform a) s).map Prod.snd) s = some (as.foldl next s) := by
  induction as generalizing s with
  | nil => rfl
  | cons a as ih =>
    obtain ⟨hexec, hkept⟩ := hnext s a h
    rw [List.foldlM_cons, hexec]
    exact ih hkept

/-- A clockwork gets through all steps. -/
theorem after_eq_run (config : Alarm.Config) (steps : List (Step κ)) :
    after config steps = some (run config steps) :=
  foldlM_exec (fun _ step h => ⟨exec_step h step, h.step step⟩) steps rfl

end Clockwork

end ElementHost
