import ElementHost.Alarm.Shared
import ElementHost.Proofs.Alarm.Command
import ElementHost.Proofs.Countdown.Orders

/-!
# An alarm beside a second facility

The task that serves an alarm's timer may take orders from a second facility as well: the mailbox is
the same, but each facility has a timer of its own.  Anybody may use the alarm and call the second
facility, from outside and from the jobs, with the lock free or taken.

* `Workshop`, `Conduct`, what the code around the alarm does, and `Step`;
* `Workshop.exec` and `Workshop.after`, which say where a run ends if somebody finds the lock taken;
* `Upholds`, what a computation keeps whether it ends well or not, with a rule for each way to put
  computations together;
* `Intact`, the alarm agrees with its own facility, and `Held`, nobody touches either meanwhile;
* `lockstep_everywhere`, the law of every run.

The second facility cannot break the agreement: it decides on its own state alone, and all that it
shares with the alarm's facility is the mailbox, which neither of them reads.
-/

namespace ElementHost

open Alarm (Command Reply)
open Countdown (Call Mailbox Refusal Scene SceneM Service Task)

namespace Workshop

/-- How things stand with an alarm. -/
structure Standing (κ : Type) where
  alarm : Alarm κ Unit
  /-- The facility of its timer. -/
  service : Service
  mailbox : Mailbox

/-- What is written down in a workshop. -/
inductive Event (κ : Type)
  /-- Somebody asked the alarm for something, and got a reply. -/
  | asked (c : Command κ) (before after : Standing κ) (reply : Reply)
  /-- Somebody looked how things stand. -/
  | looked (standing : Standing κ)

/-- What surrounds a facility and its mailbox: a scene, and a second facility. -/
structure Surroundings (κ : Type) extends Scene (Event κ) where
  spare : Service := {}

/-- Computations with a facility and its mailbox. -/
abbrev FacilityM (κ : Type) := StateT Service (StateT Mailbox (StateM (Surroundings κ)))

instance (κ : Type) : MonadLift (SceneM (Event κ)) (StateM (Surroundings κ)) where
  monadLift f := modifyGet fun s =>
    ((f.run s.toScene).1, { s with toScene := (f.run s.toScene).2 })

end Workshop

/-- An alarm behind its lock, with its facility, the mailbox and what surrounds them. -/
structure Workshop (κ : Type) extends Workshop.Surroundings κ where
  /-- The cell of the alarm, which is empty while the alarm is in use. -/
  cell : Option (Alarm κ Unit)
  service : Service := {}
  mailbox : Mailbox := {}

/-- Computations in a workshop. -/
abbrev WorkshopM (κ : Type) := SharedAlarmT κ Unit (Workshop.FacilityM κ)

namespace Workshop

variable {κ α β : Type}

/-- The facility of the alarm's timer. -/
def timers : Timers (WorkshopM κ) Unit Refusal :=
  (Countdown.timers : Timers (FacilityM κ) Unit Refusal).lift

/-- Takes down how things stand. -/
def standing : WorkshopM κ (Standing κ) := do
  let alarm ← SharedAlarm.use get
  let service ← liftM (get : FacilityM κ Service)
  let mailbox ← getThe Mailbox
  return { alarm, service, mailbox }

/-- Writes something down. -/
def note (event : Event κ) : WorkshopM κ Unit :=
  liftM (Scene.note fun _ => event : SceneM (Event κ) Unit)

/-- Asks the alarm for something. -/
def ask (c : Command κ) : WorkshopM κ Reply := do
  let before ← standing
  let reply ← SharedAlarm.use (c.perform timers)
  let after ← standing
  note (.asked c before after reply)
  return reply

/-- Looks how things stand. -/
def look : WorkshopM κ (Standing κ) := do
  let standing ← standing
  note (.looked standing)
  return standing

/-- What a call does to a facility. -/
def act : Call → FacilityM κ (Except Refusal Unit)
  | .create name ticks => Countdown.timers.create name ticks
  | .start ticks => Countdown.timers.start () ticks
  | .stop => Countdown.timers.stop ()
  | .delete => Countdown.timers.delete ()

/-- Calls the second facility. -/
def callSpare (call : Call) : WorkshopM κ (Except Refusal Unit) := do
  let surroundings ← getThe (Surroundings κ)
  let called := (act call : FacilityM κ (Except Refusal Unit)).run surroundings.spare
  let (result, spare) ← (liftM called : FacilityM κ (Except Refusal Unit × Service))
  modifyThe (Surroundings κ) fun s => { s with spare }
  return result

/-- What the code around an alarm does, one thing after the other, each chosen by what it has been
told so far. -/
inductive Conduct (κ : Type)
  | done
  | ask (c : Command κ) (next : Reply → Conduct κ)
  | look (next : Standing κ → Conduct κ)
  /-- Has the registered job handed out. -/
  | expire (next : Option κ → Conduct κ)
  | settle (next : Conduct κ)
  /-- Runs the registered job under the lock; the conduct of each job is given. -/
  | trigger (jobs : κ → Conduct κ) (next : Conduct κ)
  /-- Runs the registered job with the lock released, as an expiry does. -/
  | fire (jobs : κ → Conduct κ) (next : Conduct κ)
  /-- Calls the second facility. -/
  | spare (call : Call) (next : Except Refusal Unit → Conduct κ)

namespace Conduct

/-- Does what there is to do. -/
def perform : Conduct κ → WorkshopM κ Unit
  | done => return ()
  | ask c next => do
    let reply ← Workshop.ask c
    (next reply).perform
  | look next => do
    let standing ← Workshop.look
    (next standing).perform
  | expire next => do
    let job ← SharedAlarm.use Alarm.expire
    (next job).perform
  | settle next => do
    SharedAlarm.use Alarm.settle
    next.perform
  | trigger jobs next => do
    SharedAlarm.use (Alarm.trigger fun job => liftM (jobs job).perform)
    next.perform
  | fire jobs next => do
    SharedAlarm.fire fun job => (jobs job).perform
    next.perform
  | spare call next => do
    let result ← callSpare call
    (next result).perform

/-- It leaves the alarm alone. -/
def Aloof : Conduct κ → Prop
  | done => True
  | spare _ next => ∀ result, (next result).Aloof
  | _ => False

/-- Jobs that run under the lock leave the alarm alone. -/
def Careful : Conduct κ → Prop
  | done => True
  | ask _ next => ∀ reply, (next reply).Careful
  | look next => ∀ standing, (next standing).Careful
  | expire next => ∀ job, (next job).Careful
  | settle next => next.Careful
  | trigger jobs next => (∀ job, (jobs job).Aloof) ∧ next.Careful
  | fire jobs next => (∀ job, (jobs job).Careful) ∧ next.Careful
  | spare _ next => ∀ result, (next result).Careful

end Conduct

/-- Something that happens in a workshop. -/
inductive Step (κ : Type)
  | act (conduct : Conduct κ)
  | advance (micros : ℕ)
  /-- One poll of the task, with the conduct of the jobs in it. -/
  | poll (jobs : κ → Conduct κ)

/-- Performs a step. -/
def Step.perform : Step κ → WorkshopM κ Unit
  | act conduct => conduct.perform
  | advance micros => liftM (Scene.advance micros : SceneM (Event κ) Unit)
  | poll jobs => Scene.poll (Event κ) (SharedAlarm.fire fun job => (jobs job).perform)

/-- Jobs that run under the lock leave the alarm alone. -/
def Step.Careful : Step κ → Prop
  | act conduct => conduct.Careful
  | advance _ => True
  | poll jobs => ∀ job, (jobs job).Careful

/-- Runs a computation.  An alarm that is in use when it fails is not given back. -/
def exec (f : WorkshopM κ α) (s : Workshop κ) : Except SharedAlarm.Error α × Workshop κ :=
  match (((f.run s.cell).run.run s.service).run s.mailbox).run s.toSurroundings with
  | (((.ok (a, cell), service), mailbox), surroundings) =>
    (.ok a, { surroundings with cell, service, mailbox })
  | (((.error e, service), mailbox), surroundings) =>
    (.error e, { surroundings with cell := none, service, mailbox })

/-- A workshop at the beginning, with a new alarm. -/
def init (config : Alarm.Config) : Workshop κ := { cell := some { config } }

/-- What comes of some steps, from the beginning, up to the first that fails. -/
def after (config : Alarm.Config) (steps : List (Step κ)) :
    Except SharedAlarm.Error PUnit × Workshop κ :=
  exec (forM steps Step.perform) (init config)

/-! ### The law -/

/-- The alarm has a timer exactly if the timer of its facility exists. -/
def Standing.Lockstep (d : Standing κ) : Prop := d.service.created = d.alarm.timer.isSome

/-- How things stand when the timer has just been destroyed. -/
def Standing.destroyed (d : Standing κ) : Standing κ where
  alarm := { d.alarm with timer := none, phase := .idle }
  service := ⟨false⟩
  mailbox := ⟨some .stop⟩

/-- The alarm and its facility agreed before and after it; no error was replied; and whoever wanted
the timer destroyed found that done, or found nothing changed if there was none. -/
def Event.Lawful : Event κ → Prop
  | asked c before after reply =>
    before.Lockstep ∧ after.Lockstep ∧ reply.isOk = true ∧
      (c = .destroy → after = if before.alarm.timer.isSome then before.destroyed else before)
  | looked standing => standing.Lockstep

/-- Everything that was written down is lawful. -/
def Lawful (s : Workshop κ) : Prop := ∀ event ∈ s.history, event.Lawful

/-! ### Computations that uphold something -/

theorem exec_bind (f : WorkshopM κ α) (g : α → WorkshopM κ β) (s : Workshop κ) :
    exec (f >>= g) s =
      match exec f s with
      | (.ok a, s') => exec (g a) s'
      | (.error e, s') => (.error e, s') := by
  unfold exec
  simp only [StateT.run_bind, ExceptT.run_bind]
  rcases (((f.run s.cell).run.run s.service).run s.mailbox).run s.toSurroundings with
    ⟨⟨⟨_ | ⟨a, cell⟩, service⟩, mailbox⟩, surroundings⟩ <;> rfl

/-- Either it ends well and keeps the property `P`, or it fails, and then all that was written down
is lawful.  Under the condition `C` it does not fail. -/
def Upholds (P : Workshop κ → Prop) (C : Prop) (f : WorkshopM κ α) : Prop :=
  ∀ s, P s → (∃ a s', exec f s = (.ok a, s') ∧ P s') ∨
    ∃ e s', exec f s = (.error e, s') ∧ s'.Lawful ∧ ¬ C

/-- The alarm is in its cell and agrees with its facility. -/
def Intact (s : Workshop κ) : Prop :=
  (∃ alarm, s.cell = some alarm ∧ s.service.created = alarm.timer.isSome) ∧ s.Lawful

/-- The alarm is in use, and its facility is as it was when it was taken. -/
def Held (service : Service) (s : Workshop κ) : Prop :=
  s.cell = none ∧ s.service = service ∧ s.Lawful

namespace Upholds

variable {P : Workshop κ → Prop} {C D : Prop} {f : WorkshopM κ α}

/-- What ends well, whatever the condition. -/
theorem of_exec (h : ∀ s, P s → ∃ a s', exec f s = (.ok a, s') ∧ P s') : Upholds P C f :=
  fun s hs => .inl (h s hs)

theorem mono (h : Upholds P C f) (hcondition : D → C) : Upholds P D f := by
  intro s hs
  rcases h s hs with hok | ⟨e, s', hexec, hlawful, hnot⟩
  · exact .inl hok
  · exact .inr ⟨e, s', hexec, hlawful, fun hd => hnot (hcondition hd)⟩

theorem pure (a : α) : Upholds P C (Pure.pure a) :=
  of_exec fun s hs => ⟨a, s, rfl, hs⟩

theorem bind {g : α → WorkshopM κ β} (hf : Upholds P C f) (hg : ∀ a, Upholds P C (g a)) :
    Upholds P C (f >>= g) := by
  intro s hs
  rw [exec_bind]
  rcases hf s hs with ⟨a, s', hexec, hs'⟩ | ⟨e, s', hexec, herror⟩
  · rw [hexec]
    exact hg a s' hs'
  · rw [hexec]
    exact .inr ⟨e, s', rfl, herror⟩

theorem forM {γ : Type} {g : γ → WorkshopM κ Unit} (cs : List γ)
    (h : ∀ c ∈ cs, Upholds P C (g c)) : Upholds P C (forM cs g) := by
  induction cs with
  | nil => exact pure _
  | cons c cs ih =>
    rw [List.forM_cons]
    exact (h c (by simp)).bind fun _ => ih fun c hc => h c (by simp [hc])

end Upholds

/-! ### What is done with the lock free -/

/-- While alarm and facility agree, whatever is asked of the alarm succeeds. -/
theorem exec_ask {s : Workshop κ} {alarm : Alarm κ Unit} (hcell : s.cell = some alarm)
    (h : s.service.created = alarm.timer.isSome) (c : Command κ) :
    ∃ alarm' service mailbox reply,
      let before : Standing κ := ⟨alarm, s.service, s.mailbox⟩
      let after : Standing κ := ⟨alarm', service, mailbox⟩
      exec (ask c) s = (.ok reply, { s with
        cell := some alarm'
        service
        mailbox
        history := .asked c before after reply :: s.history }) ∧
      (Event.asked c before after reply).Lawful := by
  obtain ⟨surroundings, cell, ⟨existing⟩, mailbox⟩ := s
  obtain ⟨config, timer, job, triggered, phase, created⟩ := alarm
  obtain rfl : cell = some _ := hcell
  obtain rfl : existing = timer.isSome := h
  -- what comes of a command depends on the timer and on whether a start is in flight
  rcases c with (_ | job) | job | _ | ⟨job, delayMicros⟩ | _ <;>
    cases timer <;> cases triggered
  all_goals
    refine ⟨_, _, _, _, rfl, rfl, rfl, rfl, ?_⟩
    rintro ⟨⟩ <;> rfl

/-- A call of the second facility changes its own state and the mailbox, and nothing else. -/
theorem exec_callSpare (call : Call) (s : Workshop κ) :
    ∃ result spare mailbox,
      exec (callSpare call) s = (.ok result, { s with spare, mailbox }) := by
  obtain ⟨⟨scene, ⟨created⟩⟩, cell, service, mailbox⟩ := s
  cases call <;> cases created <;> exact ⟨_, _, _, rfl⟩

section Upheld

variable {C : Prop}

theorem upholds_ask (c : Command κ) : Upholds Intact C (ask c) := by
  refine .of_exec ?_
  rintro s ⟨⟨alarm, hcell, h⟩, hlawful⟩
  obtain ⟨alarm', service, mailbox, reply, hexec, hevent⟩ := exec_ask hcell h c
  refine ⟨reply, _, hexec, ⟨alarm', rfl, hevent.2.1⟩, ?_⟩
  exact List.forall_mem_cons.2 ⟨hevent, hlawful⟩

theorem upholds_look : Upholds (κ := κ) Intact C look := by
  refine .of_exec ?_
  rintro ⟨surroundings, cell, service, mailbox⟩ ⟨⟨alarm, hcell, h⟩, hlawful⟩
  obtain rfl : cell = some alarm := hcell
  refine ⟨⟨alarm, service, mailbox⟩, _, rfl, ⟨alarm, rfl, h⟩, ?_⟩
  exact List.forall_mem_cons.2 ⟨h, hlawful⟩

/-- A use of the alarm that leaves its timer alone. -/
theorem upholds_modifyGet {g : Alarm κ Unit → α × Alarm κ Unit}
    (hg : ∀ alarm, (g alarm).2.timer = alarm.timer) :
    Upholds Intact C (SharedAlarm.use (modifyGet g)) := by
  refine .of_exec ?_
  rintro ⟨surroundings, cell, service, mailbox⟩ ⟨⟨alarm, hcell, h⟩, hlawful⟩
  obtain rfl : cell = some alarm := hcell
  rw [← hg alarm] at h
  exact ⟨(g alarm).1, _, rfl, ⟨(g alarm).2, rfl, h⟩, hlawful⟩

theorem upholds_expire : Upholds (κ := κ) Intact C (SharedAlarm.use Alarm.expire) :=
  upholds_modifyGet fun _ => rfl

theorem upholds_settle : Upholds (κ := κ) Intact C (SharedAlarm.use Alarm.settle) :=
  upholds_modifyGet fun _ => rfl

theorem upholds_fire {run : κ → WorkshopM κ Unit} (h : ∀ job, Upholds Intact C (run job)) :
    Upholds Intact C (SharedAlarm.fire run) := by
  refine upholds_expire.bind fun job => ?_
  cases job with
  | none => exact upholds_settle
  | some job => exact (h job).bind fun _ => upholds_settle

/-- A call of the second facility keeps what depends neither on its state nor on the mailbox. -/
theorem upholds_callSpare {P : Workshop κ → Prop}
    (h : ∀ s spare mailbox, P s → P { s with spare, mailbox }) (call : Call) :
    Upholds P C (callSpare call) := by
  refine .of_exec fun s hs => ?_
  obtain ⟨result, spare, mailbox, hexec⟩ := exec_callSpare call s
  exact ⟨result, _, hexec, h s spare mailbox hs⟩

/-! ### What is done under the lock -/

/-- Under the lock, nothing changes the facility of the alarm, and who wants to use the alarm
fails. -/
theorem upholds_held (service : Service) (conduct : Conduct κ) :
    Upholds (Held service) conduct.Aloof conduct.perform := by
  have hfails {f : WorkshopM κ Unit} (h : ∀ s, s.cell = none → exec f s = (.error .inUse, s)) :
      Upholds (Held service) False f := by
    rintro s ⟨hcell, -, hlawful⟩
    exact .inr ⟨_, s, h s hcell, hlawful, id⟩
  induction conduct with
  | done => exact .pure ()
  | spare call next ih =>
    refine (upholds_callSpare (fun _ _ _ h => h) call).bind fun result => ?_
    exact (ih result).mono fun h => h result
  | ask | look | expire | settle | trigger | fire =>
    refine hfails ?_
    rintro ⟨surroundings, cell, service, mailbox⟩ hcell
    obtain rfl : cell = none := hcell
    rfl

/-- A use of the alarm empties its cell in the meantime. -/
theorem exec_use {s : Workshop κ} {alarm : Alarm κ Unit} (hcell : s.cell = some alarm)
    (f : StateT (Alarm κ Unit) (WorkshopM κ) α) :
    exec (SharedAlarm.use f) s =
      match exec (f.run alarm) { s with cell := none } with
      | (.ok (a, alarm'), s') => (.ok a, { s' with cell := some alarm' })
      | (.error e, s') => (.error e, s') := by
  obtain ⟨surroundings, cell, service, mailbox⟩ := s
  obtain rfl : cell = some alarm := hcell
  have htaken : exec (SharedAlarm.use f) ⟨surroundings, some alarm, service, mailbox⟩ =
      exec (f.run alarm >>= fun (a, alarm) => do set (some alarm); return a)
        ⟨surroundings, none, service, mailbox⟩ := rfl
  rw [htaken, exec_bind]
  rcases exec (f.run alarm) ⟨surroundings, none, service, mailbox⟩ with
    ⟨_ | ⟨a, alarm'⟩, s'⟩ <;> rfl

/-- Running the registered job under the lock leaves the timer as it is. -/
theorem run_trigger (run : κ → WorkshopM κ Unit) (alarm : Alarm κ Unit) :
    (Alarm.trigger fun job => liftM (run job)).run alarm = do
      alarm.job.forM run
      return ((), { alarm with phase := .idle }) := by
  obtain ⟨config, timer, job, triggered, phase, created⟩ := alarm
  cases job with
  | none => rfl
  | some job => simp [Alarm.trigger, Alarm.expire, Alarm.settle]

theorem upholds_trigger {run : κ → WorkshopM κ Unit}
    (h : ∀ service job, Upholds (Held service) C (run job)) :
    Upholds Intact C (SharedAlarm.use (Alarm.trigger fun job => liftM (run job))) := by
  rintro s ⟨⟨alarm, hcell, hlockstep⟩, hlawful⟩
  have hjob : Upholds (Held s.service) C (alarm.job.forM run) := by
    cases alarm.job with
    | none => exact .pure ()
    | some job => exact h s.service job
  have hheld : Held s.service { s with cell := none } := ⟨rfl, rfl, hlawful⟩
  rw [exec_use hcell, run_trigger, exec_bind]
  rcases hjob _ hheld with ⟨_, s', hexec, -, hservice, hlawful'⟩ | ⟨e, s', hexec, herror⟩
  · rw [hexec]
    refine .inl ⟨(), _, rfl, ⟨_, rfl, ?_⟩, hlawful'⟩
    rw [← hservice] at hlockstep
    exact hlockstep
  · rw [hexec]
    exact .inr ⟨e, s', rfl, herror⟩

/-! ### Runs -/

theorem upholds_conduct (conduct : Conduct κ) :
    Upholds Intact conduct.Careful conduct.perform := by
  induction conduct with
  | done => exact .pure ()
  | ask c next ih =>
    exact (upholds_ask c).bind fun reply => (ih reply).mono fun h => h reply
  | look next ih =>
    exact upholds_look.bind fun standing => (ih standing).mono fun h => h standing
  | expire next ih => exact upholds_expire.bind fun job => (ih job).mono fun h => h job
  | settle next ih => exact upholds_settle.bind fun _ => ih
  | trigger jobs next _ ih =>
    refine (upholds_trigger fun service job => ?_).bind fun _ => ih.mono fun h => h.2
    exact (upholds_held service (jobs job)).mono fun h => h.1 job
  | fire jobs next ihjobs ih =>
    refine (upholds_fire fun job => ?_).bind fun _ => ih.mono fun h => h.2
    exact (ihjobs job).mono fun h => h.1 job
  | spare call next ih =>
    refine (upholds_callSpare (fun _ _ _ h => h) call).bind fun result => ?_
    exact (ih result).mono fun h => h result

theorem upholds_obeyNext (now : ℕ) (task : Task) :
    Upholds (κ := κ) Intact C (task.obeyNext now) := by
  refine .of_exec ?_
  rintro ⟨surroundings, cell, service, ⟨waiting⟩⟩ ⟨⟨alarm, hcell, h⟩, hlawful⟩
  obtain rfl : cell = some alarm := hcell
  cases waiting <;> exact ⟨_, _, rfl, ⟨alarm, rfl, h⟩, hlawful⟩

theorem upholds_poll {onExpiry : WorkshopM κ Unit} (h : Upholds Intact C onExpiry) :
    Upholds Intact C (Scene.poll (Event κ) onExpiry) := by
  have hget : Upholds Intact C (liftM (get : SceneM (Event κ) (Scene (Event κ)))) :=
    .of_exec fun s hs => ⟨s.toScene, s, rfl, hs⟩
  have hresume (task : Task) :
      Upholds Intact C (liftM (Scene.resume task : SceneM (Event κ) Unit) : WorkshopM κ Unit) :=
    .of_exec fun s hs => ⟨(), { s with task }, rfl, hs⟩
  refine hget.bind fun scene => .bind ?_ hresume
  cases hdue : scene.task.isDue scene.now with
  | false =>
    rw [Task.poll_of_not_due hdue]
    exact upholds_obeyNext _ _
  | true =>
    rw [Task.poll_of_due hdue]
    exact h.bind fun _ => upholds_obeyNext _ _

theorem upholds_step (step : Step κ) : Upholds Intact step.Careful step.perform := by
  cases step with
  | act conduct => exact upholds_conduct conduct
  | advance micros =>
    exact .of_exec fun s hs => ⟨(), { s with now := s.now + micros }, rfl, hs⟩
  | poll jobs =>
    exact upholds_poll (upholds_fire fun job => (upholds_conduct (jobs job)).mono fun h => h job)

end Upheld

/-- **The alarm and its facility stay in lockstep.**  Whatever is asked of an alarm in a workshop,
from outside and from its jobs, whenever the clock moves and the task is polled, and whatever a
second facility on the same mailbox is called for: the alarm has a timer exactly if the timer of its
own facility exists.  So no request is answered with an error, and destroying the timer does all of
it: the timer is gone, the facility has deleted it and ordered the task to stop, and the alarm is
idle.  Where there is no timer, the facility is not called at all.  A run gets through unless a job
uses the alarm under the lock; what was written down up to then is true all the same. -/
theorem lockstep_everywhere (config : Alarm.Config) (steps : List (Step κ)) :
    let run := after config steps
    (∀ event ∈ run.2.history, event.Lawful) ∧
    (run.1 = .ok () →
      ∃ alarm, run.2.cell = some alarm ∧ run.2.service.created = alarm.timer.isSome) ∧
    ((∀ step ∈ steps, step.Careful) → run.1 = .ok ()) ∧
    ∀ alarm : Alarm κ Unit, alarm.timer = none →
      (Alarm.destroy timers).run alarm =
        (return ((), alarm) : WorkshopM κ (Unit × Alarm κ Unit)) := by
  intro run
  have hsteps : Upholds Intact (∀ step ∈ steps, step.Careful) (forM steps Step.perform) :=
    .forM steps fun step hstep => (upholds_step step).mono fun h => h step hstep
  have hinit : Intact (init (κ := κ) config) := by
    refine ⟨⟨{ config }, rfl, rfl⟩, ?_⟩
    rintro event ⟨⟩
  have hdestroy (alarm : Alarm κ Unit) (h : alarm.timer = none) :
      (Alarm.destroy timers).run alarm =
        (return ((), alarm) : WorkshopM κ (Unit × Alarm κ Unit)) := by
    simp [Alarm.destroy, h]
  rcases hsteps _ hinit with ⟨_, s, hexec, hlockstep, hlawful⟩ | ⟨e, s, hexec, hlawful, hnot⟩
  · have hrun : run = (.ok (), s) := hexec
    rw [hrun]
    exact ⟨hlawful, fun _ => hlockstep, fun _ => rfl, hdestroy⟩
  · have hrun : run = (.error e, s) := hexec
    rw [hrun]
    exact ⟨hlawful, nofun, fun h => absurd h hnot, hdestroy⟩

/-- When the alarm's timer runs out, the second facility has a timer as well.  The job has that one
deleted, registers itself again and has the alarm's timer destroyed, twice. -/
def crossing : List (Step ℕ) :=
  [.act (.ask (.start 1) fun _ => .spare (.create "spare" 5) fun _ => .done), .poll fun _ => .done,
    .advance 1000,
    .poll fun job => .spare .delete fun _ => .ask (.register job 5) fun _ => .ask .destroy fun _ =>
      .ask .destroy fun _ => .done]

theorem lockstep_everywhere_crossing :
    (∀ step ∈ crossing, step.Careful) ∧ (after {} crossing).2.history.length = 4 ∧
      (after {} crossing).1 = .ok () ∧
      ∃ alarm, (after {} crossing).2.cell = some alarm ∧
        (after {} crossing).2.service.created = alarm.timer.isSome := by
  have hcareful : ∀ step ∈ crossing, step.Careful := by
    simp [crossing, Step.Careful, Conduct.Careful]
  have hok : (after {} crossing).1 = .ok () := (lockstep_everywhere {} crossing).2.2.1 hcareful
  exact ⟨hcareful, rfl, hok, (lockstep_everywhere {} crossing).2.1 hok⟩

end Workshop

end ElementHost
