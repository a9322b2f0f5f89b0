import ElementHost.Proofs.Clockwork.Dispatch

/-!
# Jobs after the end of the timer

An alarm whose timer was destroyed is to run nothing until a job is registered again.  Destroying
the timer posts a stop, though, and leaves the job in the alarm, and a poll that finds its deadline
come runs that job before it looks at the stop.  `silent_iff` says that this is the only way in
which a job runs after the end of its timer.

* `Silenced`, what a history tells about the timer;
* `Heeded`, what the mailbox and the task of a clockwork keep with it;
* `Unheeded` and `silent_iff`.
-/

namespace ElementHost

open Alarm (Command Keeper Reply)
open Countdown (Task)

namespace Clockwork

variable {κ : Type}

/-- The timer was destroyed, and nothing was registered since. -/
def Silenced : List (Event κ) → Prop
  | [] => False
  | .registered _ _ :: _ => False
  | .destroyed _ :: _ => True
  | .ran _ _ :: earlier => Silenced earlier

/-- A stop in the mailbox is the one of the timer's end.  After that end, the stop still waits, or
the task has taken it and waits for an order. -/
structure Heeded (task : Task) (s : Clockwork κ) : Prop where
  stop : s.mailbox.waiting = some .stop → Silenced s.history
  silenced : Silenced s.history →
    s.mailbox.waiting = some .stop ∨ s.mailbox.waiting = none ∧ task = .idle

theorem keeps_heeded (task : Task) : (keeper (κ := κ)).Keeps (Heeded task) := by
  refine keeps_of ?_ ?_ ?_
  · intro job delayMicros s _
    exact ⟨by rintro ⟨⟩, by rintro ⟨⟩⟩
  · intro s _
    exact ⟨fun _ => trivial, fun _ => .inl rfl⟩
  · intro b s h
    exact ⟨h.stop, h.silenced⟩

/-- A job that begins to run leaves the orders as they are. -/
theorem Heeded.begin {task : Task} {s : Clockwork κ} (h : Heeded task s) (job : κ) :
    Heeded .idle (s.begin job) where
  stop := h.stop
  silenced hs := (h.silenced hs).imp id fun hnone => ⟨hnone.1, rfl⟩

theorem Heeded.expire {task : Task} {s : Clockwork κ} (h : Heeded task s) (jobs : Jobs κ) :
    Heeded .idle (s.expire jobs) := by
  apply expire_induction (keeps_heeded .idle)
  · intro s h
    exact ⟨h.stop, h.silenced⟩
  · intro _
    refine ⟨h.stop, ?_⟩
    intro hs
    exact (h.silenced hs).imp id fun hnone => ⟨hnone.1, rfl⟩
  · intro job _
    exact h.begin job

/-- A look into the mailbox: a stop that waits there makes the task idle. -/
theorem Heeded.look {task : Task} {s : Clockwork κ} (h : Heeded task s) (now : Nat) :
    Heeded (s.look now task).task (s.look now task) := by
  refine ⟨by rintro ⟨⟩, ?_⟩
  intro hs
  refine .inr ⟨rfl, ?_⟩
  show task.next now s.mailbox = .idle
  rcases h.silenced hs with hstop | ⟨hnone, htask⟩
  · simp only [Task.next, hstop]
    rfl
  · simp only [Task.next, hnone]
    exact htask

theorem Heeded.step {s : Clockwork κ} (h : Heeded s.task s) (step : Step κ) :
    Heeded (s.step step).task (s.step step) := by
  cases step with
  | ask c =>
    have hc := (keeps_heeded s.task).answer c s h
    rwa [← ((keeps_scene s).answer c s ⟨rfl, rfl⟩).2] at hc
  | advance micros => exact ⟨h.stop, h.silenced⟩
  | poll jobs =>
    show Heeded (s.poll jobs).task (s.poll jobs)
    cases hdue : s.task.isDue s.now with
    | false =>
      rw [poll_of_not_due hdue]
      exact h.look s.now
    | true =>
      rw [poll_of_due hdue]
      exact (h.expire jobs).look s.now

theorem heeded_run (config : Alarm.Config) (steps : List (Step κ)) :
    Heeded (run config steps).task (run config steps) := by
  induction steps using List.reverseRecOn with
  | nil => exact ⟨by rintro ⟨⟩, by rintro ⟨⟩⟩
  | append_singleton steps step ih =>
    rw [run_concat]
    exact ih.step step

/-- The deadline of the task has come, but the stop of the timer's end waits. -/
def Unheeded (s : Clockwork κ) : Prop :=
  s.task.isDue s.now = true ∧ s.mailbox.waiting = some .stop

/-- A deadline that has come is the one of a timer that was destroyed exactly if the stop has not
been heeded. -/
theorem Heeded.silenced_iff {s : Clockwork κ} (h : Heeded s.task s)
    (hdue : s.task.isDue s.now = true) : Silenced s.history ↔ s.Unheeded := by
  constructor
  · intro hs
    refine ⟨hdue, ?_⟩
    rcases h.silenced hs with hstop | ⟨-, htask⟩
    · exact hstop
    -- an idle task has no deadline
    · rw [htask] at hdue
      cases hdue
  · rintro ⟨-, hstop⟩
    exact h.stop hstop

/-- **When jobs run without a timer.**  A clockwork gets through any steps.  No job runs between
the end of the timer and the next registration, if and only if no poll finds its deadline come
while the stop of that end waits in the mailbox. -/
theorem silent_iff (config : Alarm.Config) (steps : List (Step κ)) :
    ∃ s, after config steps = some s ∧
      (EachRun (fun _ earlier => ¬ Silenced earlier) s.history ↔
        ¬ ∃ earlier jobs later s', steps = earlier ++ .poll jobs :: later ∧
          after config earlier = some s' ∧ s'.Unheeded) := by
  refine ⟨_, after_eq_run config steps, ?_⟩
  rw [eachRun_run_iff]
  constructor
  · rintro hlaw ⟨earlier, jobs, later, s', rfl, hs', hu⟩
    rw [after_eq_run] at hs'
    cases hs'
    -- a task that runs serves a job, so the poll runs one
    have hserved := served_run config earlier
    obtain ⟨job, hjob⟩ := Option.isSome_iff_exists.1 (hserved.of_isDue hu.1).1
    have hnot := hlaw earlier _ later rfl jobs rfl hu.1 job (hserved.job.trans hjob)
    exact hnot (((heeded_run config earlier).silenced_iff hu.1).2 hu)
  · rintro hno earlier _ later rfl jobs rfl hdue job _ hs
    have hu := ((heeded_run config earlier).silenced_iff hdue).1 hs
    exact hno ⟨earlier, jobs, later, _, rfl, after_eq_run _ _, hu⟩

/-- A job registered for a millisecond, which the task has taken; the timer is destroyed at once,
and the task is not polled for two milliseconds. -/
def destroyedUnseen : List (Step Unit) :=
  [.ask (.register () 1000), .poll fun _ => .done, .ask .destroy, .advance 2000,
    .poll fun _ => .done]

/-- A job may run although its timer was destroyed long before it was due. -/
theorem not_silent_destroyedUnseen :
    ∃ s, after {} destroyedUnseen = some s ∧
      s.history = [.ran 2000 (), .destroyed 0, .registered 0 ()] ∧
      ¬ EachRun (fun _ earlier => ¬ Silenced earlier) s.history := by
  refine ⟨_, after_eq_run {} destroyedUnseen, rfl, ?_⟩
  intro h
  exact h [] (.ran 2000 ()) [.destroyed 0, .registered 0 ()] rfl 2000 () rfl trivial

end Clockwork

end ElementHost
