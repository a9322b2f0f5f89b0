import ElementHost.Proofs.Alarm.Ticks
import ElementHost.Proofs.Clockwork.Basic

/-!
# The clockwork as an ideal timer

An ideal timer holds at most one job and the moment at which the job is due.  Arming it replaces
what it holds, destroying it clears that, and a poll runs the job whose moment has come.  A task
that is polled after every command and after every advance of the clock makes a clockwork behave
like that.

* `IdealTimer`, with `IdealTimer.keeper`, `IdealTimer.poll` and `IdealTimer.run`;
* `IdealTimer.Sound`, what an ideal timer is good for: no arming runs twice, and none early;
* `Matches`, a clockwork and an ideal timer in the same situation, for a given task;
* `Turn`, an outside step with the poll behind it, and `after_turns`, the refinement.

While a job runs, the task has given up its deadline and will look into the mailbox when the job
is done; `Matches` is stated for the idle task then, although the clockwork still shows the old
one.
-/

namespace ElementHost

open Alarm (Command Keeper Reply)
open Clockwork (Event Jobs Step)
open Countdown (Task)

/-- An arming of the ideal timer. -/
structure IdealTimer.Entry (κ : Type) where
  /-- When it was armed. -/
  time : Nat
  job : κ
  delayMicros : UInt32

/-- When the job of an arming is due. -/
def IdealTimer.Entry.deadline {κ : Type} (e : IdealTimer.Entry κ) : Nat :=
  e.time + max 1 e.delayMicros.toNat

/-- A one-shot timer as it should be. -/
structure IdealTimer (κ : Type) where
  config : Alarm.Config
  now : Nat := 0
  triggered : Bool := false
  /-- What it holds. -/
  pending : Option (IdealTimer.Entry κ) := none
  /-- All armings, the latest first. -/
  armings : List (IdealTimer.Entry κ) := []
  /-- The armings whose jobs were run, and when, the latest first. -/
  runs : List (Nat × IdealTimer.Entry κ) := []

namespace IdealTimer

variable {κ : Type}

/-- Holds a new job, in place of any other. -/
def arm (job : κ) (delayMicros : UInt32) (i : IdealTimer κ) : IdealTimer κ :=
  { i with
    pending := some ⟨i.now, job, delayMicros⟩
    armings := ⟨i.now, job, delayMicros⟩ :: i.armings }

/-- What the commands do to an ideal timer. -/
def keeper : Keeper κ (IdealTimer κ) where
  config := config
  triggered := triggered
  arming i := if i.pending.isSome then .replaced else .fresh
  arm := arm
  clear i := { i with pending := none }
  mark triggered i := { i with triggered }

/-- Performs the commands of a script. -/
def obey (script : Script (Command κ) Reply) : IdealTimer κ → IdealTimer κ :=
  script.final fun c => c.answer keeper

/-- Gives up what it holds, whose job begins to run. -/
def begin (e : Entry κ) (i : IdealTimer κ) : IdealTimer κ :=
  { i with pending := none, runs := (i.now, e) :: i.runs }

/-- Runs the job it holds if that is due. -/
def poll (jobs : Jobs κ) (i : IdealTimer κ) : IdealTimer κ :=
  match i.pending with
  | none => i
  | some e => if e.deadline ≤ i.now then (i.begin e).obey (jobs e.job) else i

/-- The timer after a step. -/
def step (i : IdealTimer κ) : Step κ → IdealTimer κ
  | .ask c => (c.answer keeper i).2
  | .advance micros => { i with now := i.now + micros }
  | .poll jobs => i.poll jobs

/-- The timer after some steps, from the beginning. -/
def run (config : Alarm.Config) (steps : List (Step κ)) : IdealTimer κ :=
  steps.foldl step { config }

/-- What an ideal timer is good for. -/
structure Sound (i : IdealTimer κ) : Prop where
  /-- Every arming is run at most once, and not while it is held. -/
  once : (i.pending.toList ++ i.runs.map Prod.snd).Sublist i.armings
  punctual : ∀ run ∈ i.runs, run.2.deadline ≤ run.1

theorem keeps_sound : (keeper (κ := κ)).Keeps Sound where
  arm _ _ _ h :=
    ⟨((List.sublist_append_right _ _).trans h.once).cons_cons _, h.punctual⟩
  clear _ h := ⟨(List.sublist_append_right _ _).trans h.once, h.punctual⟩
  mark _ _ h := ⟨h.once, h.punctual⟩

theorem Sound.begin {i : IdealTimer κ} (h : i.Sound) {e : Entry κ} (he : i.pending = some e)
    (hdue : e.deadline ≤ i.now) : (i.begin e).Sound := by
  constructor
  · have honce := h.once
    rw [he] at honce
    exact honce
  · intro run hrun
    rcases List.mem_cons.1 hrun with rfl | hrun
    · exact hdue
    · exact h.punctual run hrun

theorem Sound.step {i : IdealTimer κ} (h : i.Sound) (step : Step κ) : (i.step step).Sound := by
  cases step with
  | ask c => exact keeps_sound.answer c i h
  | advance micros => exact ⟨h.once, h.punctual⟩
  | poll jobs =>
    show (i.poll jobs).Sound
    unfold poll
    split
    · exact h
    · next e he =>
      split
      · next hdue => exact Script.final_induction keeps_sound.answer _ (h.begin he hdue)
      · exact h

theorem sound_run (config : Alarm.Config) (steps : List (Step κ)) : (run config steps).Sound :=
  List.foldlRecOn steps step ⟨List.nil_sublist _, by simp⟩ fun _ h step _ => h.step step

/-- What is held is not due yet. -/
def Ahead (i : IdealTimer κ) : Prop := ∀ e, i.pending = some e → i.now < e.deadline

theorem keeps_ahead : (keeper (κ := κ)).Keeps Ahead where
  arm job delayMicros i _ := by
    rintro e ⟨⟩
    exact Nat.lt_add_of_pos_right (Nat.le_max_left 1 _)
  clear i _ := by rintro e ⟨⟩
  mark _ _ h := h

theorem Ahead.poll {i : IdealTimer κ} (h : i.Ahead) (jobs : Jobs κ) : i.poll jobs = i := by
  unfold IdealTimer.poll
  split
  · rfl
  · next e he => exact if_neg (Nat.not_le_of_lt (h e he))

/-- What the task should wait for. -/
def awaits (i : IdealTimer κ) : Task :=
  match i.pending with
  | none => .idle
  | some e => .running e.deadline

theorem Ahead.isDue_awaits {i : IdealTimer κ} (h : i.Ahead) : i.awaits.isDue i.now = false := by
  unfold awaits
  split
  · rfl
  · next e he => exact decide_eq_false (Nat.not_le_of_lt (h e he))

end IdealTimer

namespace Clockwork

variable {κ : Type}

/-- The job that an event runs, and when. -/
def Event.run? : Event κ → Option (Nat × κ)
  | .ran time job => some (time, job)
  | _ => none

/-- The job that an event registers, and when. -/
def Event.registration? : Event κ → Option (Nat × κ)
  | .registered time job => some (time, job)
  | _ => none

/-! ### The simulation -/

/-- A clockwork with a task and an ideal timer are in the same situation. -/
structure Matches (task : Task) (s : Clockwork κ) (i : IdealTimer κ) : Prop where
  now : s.now = i.now
  config : s.alarm.config = i.config
  triggered : s.alarm.triggered = i.triggered
  /-- What the task will wait for when it has looked into the mailbox. -/
  awaits : task.next s.now s.mailbox = i.awaits
  armed : s.alarm.phase = .armed ↔ i.pending.isSome
  timer : i.pending.isSome → s.alarm.timer.isSome
  job : ∀ e, i.pending = some e → s.alarm.job = some e.job
  runs : s.history.filterMap Event.run? = i.runs.map fun run => (run.1, run.2.job)
  registrations :
    s.history.filterMap Event.registration? = i.armings.map fun e => (e.time, e.job)

theorem Matches.arm {task : Task} {s : Clockwork κ} {i : IdealTimer κ} (h : Matches task s i)
    (job : κ) (delayMicros : UInt32) : Matches task (s.arm job delayMicros) (i.arm job delayMicros)
    where
  now := h.now
  config := h.config
  triggered := h.triggered
  awaits := by
    show Task.running (s.now + (Alarm.ticksOfMicros delayMicros Countdown.tickRate).toNat) = _
    rw [Alarm.toNat_ticksOfMicros_tickRate, h.now]
    rfl
  armed := by simp [Clockwork.arm, IdealTimer.arm]
  timer _ := rfl
  job := by
    rintro e ⟨⟩
    rfl
  runs := h.runs
  registrations := by
    show (s.now, job) :: s.history.filterMap Event.registration? = _
    rw [h.now, h.registrations]
    rfl

theorem Matches.clear {task : Task} {s : Clockwork κ} {i : IdealTimer κ} (h : Matches task s i) :
    Matches task (keeper.clear s) (IdealTimer.keeper.clear i) := by
  show Matches task (if _ then _ else _) { i with pending := none }
  split
  · exact ⟨h.now, h.config, h.triggered, rfl, by simp [destroyed], by simp, by rintro e ⟨⟩,
      h.runs, h.registrations⟩
  · next htimer =>
    -- nothing is pending without a timer
    have hnone : i.pending = none :=
      Option.not_isSome_iff_eq_none.1 fun hsome => htimer (h.timer hsome)
    rwa [← hnone]

theorem related_matches (task : Task) :
    (keeper (κ := κ)).Related IdealTimer.keeper (Matches task) where
  config _ _ h := h.config
  triggered _ _ h := h.triggered
  arming s i h := by
    show (if _ then _ else _) = (if _ then _ else _)
    simp only [h.armed]
  arm job delayMicros _ _ h := h.arm job delayMicros
  clear _ _ h := h.clear
  mark _ _ _ h :=
    ⟨h.now, h.config, rfl, h.awaits, h.armed, h.timer, h.job, h.runs, h.registrations⟩

/-- Both begin to run the same job. -/
theorem Matches.begin {task : Task} {s : Clockwork κ} {i : IdealTimer κ} (h : Matches task s i)
    (hempty : s.mailbox = {}) (e : IdealTimer.Entry κ) :
    Matches .idle (s.begin e.job) (i.begin e) where
  now := h.now
  config := h.config
  triggered := h.triggered
  awaits := by
    show Task.next _ _ s.mailbox = _
    rw [hempty]
    rfl
  armed := by simp [Clockwork.begin, IdealTimer.begin]
  timer := by simp [IdealTimer.begin]
  job := by rintro e ⟨⟩
  runs := by
    show (s.now, e.job) :: s.history.filterMap Event.run? = _
    rw [h.now, h.runs]
    rfl
  registrations := h.registrations

theorem Matches.settle {task : Task} {s : Clockwork κ} {i : IdealTimer κ} (h : Matches task s i) :
    Matches task s.settle i := by
  refine ⟨h.now, h.config, h.triggered, h.awaits, ?_, h.timer, h.job, h.runs, h.registrations⟩
  rw [← h.armed]
  unfold Clockwork.settle
  cases s.alarm.phase <;> simp

/-- A clockwork at rest and an ideal timer in the same situation: no order waits, and nothing is
due. -/
structure Rests (s : Clockwork κ) (i : IdealTimer κ) : Prop extends Matches s.task s i where
  mailbox : s.mailbox = {}
  ahead : i.Ahead

/-- After a look into the mailbox, a clockwork is at rest. -/
theorem Matches.look {task : Task} {s : Clockwork κ} {i : IdealTimer κ} (h : Matches task s i)
    (hahead : i.Ahead) : Rests (s.look s.now task) i :=
  ⟨⟨h.now, h.config, h.triggered, h.awaits, h.armed, h.timer, h.job, h.runs, h.registrations⟩,
    rfl, hahead⟩

/-- With an empty mailbox, the task waits for what the ideal timer waits for. -/
theorem Matches.task_eq {s : Clockwork κ} {i : IdealTimer κ} (h : Matches s.task s i)
    (hempty : s.mailbox = {}) : s.task = i.awaits := by
  rw [← h.awaits, hempty]
  rfl

/-- A poll of a task whose deadline has not come. -/
theorem Matches.poll_of_not_due {s : Clockwork κ} {i : IdealTimer κ} (h : Matches s.task s i)
    (hahead : i.Ahead) (hdue : s.task.isDue s.now = false) (jobs : Jobs κ) :
    Rests (s.poll jobs) (i.poll jobs) := by
  rw [Clockwork.poll_of_not_due hdue, hahead.poll]
  exact h.look hahead

/-- A poll of a task whose deadline has come, with an empty mailbox. -/
theorem Matches.poll_of_due {s : Clockwork κ} {i : IdealTimer κ} {e : IdealTimer.Entry κ}
    (h : Matches s.task s i) (hempty : s.mailbox = {}) (hpending : i.pending = some e)
    (hdue : e.deadline ≤ i.now) (jobs : Jobs κ) : Rests (s.poll jobs) (i.poll jobs) := by
  have hs : s.poll jobs = (s.expire jobs).look (s.expire jobs).now .idle := by
    rw [now_expire]
    refine Clockwork.poll_of_due ?_ jobs
    simp [h.task_eq hempty, IdealTimer.awaits, hpending, Task.isDue, h.now, hdue]
  have hi : i.poll jobs = (i.begin e).obey (jobs e.job) := by
    rw [IdealTimer.poll, hpending]
    exact if_pos hdue
  -- the job runs and is done before the task looks into the mailbox again
  have hscript : Matches .idle ((s.begin e.job).obey (jobs e.job))
      ((i.begin e).obey (jobs e.job)) :=
    Script.final_related (related_matches .idle).answer (jobs e.job) (h.begin hempty e)
  have hahead : ((i.begin e).obey (jobs e.job)).Ahead :=
    Script.final_induction IdealTimer.keeps_ahead.answer (jobs e.job) (by rintro e ⟨⟩)
  rw [hs, hi, expire_of_some (h.job e hpending)]
  exact hscript.settle.look hahead

/-- A poll with an empty mailbox. -/
theorem Matches.poll_of_empty {s : Clockwork κ} {i : IdealTimer κ} (h : Matches s.task s i)
    (hempty : s.mailbox = {}) (jobs : Jobs κ) : Rests (s.poll jobs) (i.poll jobs) := by
  by_cases hdue : ∃ e, i.pending = some e ∧ e.deadline ≤ i.now
  · obtain ⟨e, hpending, hdue⟩ := hdue
    exact h.poll_of_due hempty hpending hdue jobs
  · have hahead : i.Ahead := fun e he => Nat.lt_of_not_le fun hle => hdue ⟨e, he, hle⟩
    refine h.poll_of_not_due hahead ?_ jobs
    rw [h.task_eq hempty, h.now]
    exact hahead.isDue_awaits

/-! ### Eager polling -/

/-- A step from outside with the poll behind it. -/
structure Turn (κ : Type) where
  /-- A command, or so many microseconds that pass. -/
  outside : Command κ ⊕ Nat
  /-- What the jobs do in the poll. -/
  jobs : Jobs κ

/-- The steps of a turn. -/
def Turn.steps (turn : Turn κ) : List (Step κ) :=
  [turn.outside.elim .ask .advance, .poll turn.jobs]

/-- After a turn, a clockwork that was at rest is at rest again. -/
theorem Rests.turn {s : Clockwork κ} {i : IdealTimer κ} (h : Rests s i) (turn : Turn κ) :
    Rests (turn.steps.foldl step s) (turn.steps.foldl IdealTimer.step i) := by
  obtain ⟨outside, jobs⟩ := turn
  cases outside with
  | inl c =>
    -- the deadline of the task may be out of date by now, but it has not come
    obtain ⟨hnow, htask⟩ := (keeps_scene s).answer c s ⟨rfl, rfl⟩
    have hmatches := ((related_matches s.task).answer c s i h.toMatches).2
    rw [← htask] at hmatches
    refine hmatches.poll_of_not_due (IdealTimer.keeps_ahead.answer c i h.ahead) ?_ jobs
    rw [htask, hnow, h.task_eq h.mailbox, h.now]
    exact h.ahead.isDue_awaits
  | inr micros =>
    -- an empty mailbox does not care about the time
    let s' : Clockwork κ := { s with now := s.now + micros }
    let i' : IdealTimer κ := { i with now := i.now + micros }
    have hmatches : Matches s'.task s' i' := by
      refine ⟨congrArg (· + micros) h.now, h.config, h.triggered, ?_, h.armed, h.timer, h.job,
        h.runs, h.registrations⟩
      have hawaits := h.awaits
      rw [h.mailbox] at hawaits
      show s.task.next _ s.mailbox = _
      rw [h.mailbox]
      exact hawaits
    exact hmatches.poll_of_empty h.mailbox jobs

theorem rests_init (config : Alarm.Config) :
    Rests (init config : Clockwork κ) { config } where
  now := rfl
  config := rfl
  triggered := rfl
  awaits := rfl
  armed := by simp [init]
  timer := by simp
  job := by rintro e ⟨⟩
  runs := rfl
  registrations := rfl
  mailbox := rfl
  ahead := by rintro e ⟨⟩

/-- Turn by turn, a clockwork stays with the ideal timer. -/
theorem rests_run (config : Alarm.Config) (turns : List (Turn κ)) :
    Rests (run config (turns.flatMap Turn.steps))
      (IdealTimer.run config (turns.flatMap Turn.steps)) := by
  induction turns using List.reverseRecOn with
  | nil => exact rests_init config
  | append_singleton turns turn ih =>
    rw [List.flatMap_append, List.flatMap_singleton, run, IdealTimer.run, List.foldl_append,
      List.foldl_append]
    exact ih.turn turn

/-- **The clockwork refines the ideal timer.**  With a poll behind every command and every advance
of the clock, a clockwork gets through all its steps, registers and runs the same jobs at the same
times as the ideal timer, and is armed exactly when the ideal timer holds a job.  The ideal timer
runs no arming twice and none before its deadline. -/
theorem after_turns (config : Alarm.Config) (turns : List (Turn κ)) :
    let steps := turns.flatMap Turn.steps
    let i := IdealTimer.run config steps
    ∃ s, after config steps = some s ∧
      s.history.filterMap Event.run? = i.runs.map (fun run => (run.1, run.2.job)) ∧
      s.history.filterMap Event.registration? = i.armings.map (fun e => (e.time, e.job)) ∧
      (s.alarm.phase = .armed ↔ i.pending.isSome) ∧
      (i.runs.map Prod.snd).Sublist i.armings ∧ ∀ run ∈ i.runs, run.2.deadline ≤ run.1 := by
  intro steps i
  have hrests : Rests (run config steps) i := rests_run config turns
  have hsound : i.Sound := IdealTimer.sound_run config steps
  exact ⟨_, after_eq_run config steps, hrests.runs, hrests.registrations, hrests.armed,
    (List.sublist_append_right _ _).trans hsound.once, hsound.punctual⟩

end Clockwork

end ElementHost
