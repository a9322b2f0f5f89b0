import ElementHost.Proofs.Clockwork.Conduct
import ElementHost.Proofs.Clockwork.Dispatch
import Mathlib.Algebra.Group.Nat.Defs

/-!
# Armings are not lost

An alarm is armed in the face of much that could strand it: a deadline that comes while the next
start waits, a stop in place of a start, a job that arms the alarm during the poll in which it
runs.  Yet an armed alarm always has its start in the mailbox or its deadline with the task, and so
its job runs in the end.

* `Ticking`, what an armed alarm can count on;
* `Wound`, what the alarm, the mailbox and the task keep with each other;
* `armed_served`, that an armed alarm runs its job.
-/

namespace ElementHost

open Countdown (Task)

namespace Clockwork

variable {κ : Type}

/-- A start waits in the mailbox, or the mailbox is empty and the task has a deadline. -/
def Ticking (task : Task) (s : Clockwork κ) : Prop :=
  (∃ ticks, s.mailbox.waiting = some (.start ticks)) ∨
    s.mailbox.waiting = none ∧ ∃ deadline, task = .running deadline

/-- The job of the alarm is the one registered last; an armed alarm has one and is ticking; and no
deadline is further away than a timer can be set. -/
structure Wound (task : Task) (s : Clockwork κ) : Prop where
  job : s.alarm.job = lastJob s.history
  armed : s.alarm.phase = .armed → s.alarm.job.isSome ∧ Ticking task s
  near : ∀ deadline, task = .running deadline → deadline < s.now + 2 ^ 32

theorem keeps_wound (task : Task) : (keeper (κ := κ)).Keeps (Wound task) := by
  refine keeps_of ?_ ?_ ?_
  · intro job delayMicros s h
    exact ⟨rfl, fun _ => ⟨rfl, .inl ⟨_, rfl⟩⟩, h.near⟩
  -- the stop comes with the end of the arming
  · intro s h
    exact ⟨h.job, by rintro ⟨⟩, h.near⟩
  · intro b s h
    exact ⟨h.job, h.armed, h.near⟩

/-- An alarm whose job was handed out is not armed any more. -/
theorem phase_handOut_ne_armed (s : Clockwork κ) : s.handOut.alarm.phase ≠ .armed := by
  rw [handOut]
  cases s.alarm.job <;> simp

/-- Settling arms nothing. -/
theorem armed_of_settle {s : Clockwork κ} (h : s.settle.alarm.phase = .armed) :
    s.alarm.phase = .armed := by
  simp only [settle] at h
  split at h
  · cases h
  · exact h

theorem conserved_wound (task : Task) : Conserved (κ := κ) (Wound task) := by
  constructor
  case commands => exact keeps_wound task
  case handOut =>
    intro s h
    refine ⟨h.job, ?_, h.near⟩
    intro harmed
    exact absurd harmed s.phase_handOut_ne_armed
  case begin =>
    intro job s h
    exact ⟨h.job, by rintro ⟨⟩, h.near⟩
  case settle =>
    intro s h
    refine ⟨h.job, ?_, h.near⟩
    intro harmed
    exact h.armed (armed_of_settle harmed)

/-- An expiry may begin as soon as the job is handed out, whatever the task was. -/
theorem Wound.dispatch {task : Task} {s : Clockwork κ} (h : Wound task s)
    (jobs : κ → Conduct κ) : Wound .idle (s.dispatch fun job s => (jobs job).play s) := by
  have hout : Wound .idle s.handOut :=
    ⟨h.job, fun ha => absurd ha s.phase_handOut_ne_armed, by rintro deadline ⟨⟩⟩
  rw [← dispatch_handOut]
  exact (conserved_wound .idle).dispatch_play jobs hout

/-- A look into the mailbox takes the start of an armed alarm, or leaves its deadline alone. -/
theorem Wound.look {task : Task} {s : Clockwork κ} (h : Wound task s) :
    Wound (s.look s.now task).task (s.look s.now task) where
  job := h.job
  armed ha := by
    obtain ⟨hjob, ⟨ticks, hw⟩ | ⟨hw, deadline, htask⟩⟩ := h.armed ha
    · refine ⟨hjob, .inr ⟨rfl, s.now + ticks.toNat, ?_⟩⟩
      simp [Clockwork.look, Task.next, Task.obey, hw]
    · refine ⟨hjob, .inr ⟨rfl, deadline, ?_⟩⟩
      simp [Clockwork.look, Task.next, hw, htask]
  near deadline hrunning := by
    show deadline < s.now + 2 ^ 32
    cases hw : s.mailbox.waiting with
    | none =>
      simp only [Clockwork.look, Task.next, hw] at hrunning
      exact h.near deadline hrunning
    | some order =>
      simp only [Clockwork.look, Task.next, hw] at hrunning
      cases order with
      | stop => cases hrunning
      | start ticks =>
        cases hrunning
        exact Nat.add_lt_add_left ticks.toNat_lt s.now

theorem Wound.move {s : Clockwork κ} (h : Wound s.task s) (move : Move κ) :
    Wound (s.move move).task (s.move move) := by
  cases move with
  | act conduct =>
    have hplay := (conserved_wound s.task).play conduct h
    rwa [← ((conserved_scene s).play conduct ⟨rfl, rfl⟩).2] at hplay
  | advance micros =>
    refine ⟨h.job, h.armed, ?_⟩
    intro deadline hrunning
    exact Nat.lt_of_lt_of_le (h.near deadline hrunning) (by simp [Clockwork.move])
  | poll jobs =>
    cases hdue : s.task.isDue s.now with
    | false =>
      rw [move_poll_of_not_due hdue]
      exact h.look
    | true =>
      -- the clock stands still during the expiry
      have hnow := ((conserved_scene s).dispatch_play jobs ⟨rfl, rfl⟩).1
      rw [move_poll_of_due hdue, ← hnow]
      exact (h.dispatch jobs).look

theorem wound_init (config : Alarm.Config) : Wound .idle (init config : Clockwork κ) :=
  ⟨rfl, by rintro ⟨⟩, by rintro deadline ⟨⟩⟩

theorem Wound.moves {s : Clockwork κ} (h : Wound s.task s) (moves : List (Move κ)) :
    Wound (moves.foldl Clockwork.move s).task (moves.foldl Clockwork.move s) := by
  induction moves generalizing s with
  | nil => exact h
  | cons move moves ih => exact ih (h.move move)

/-! ### Armed alarms run their jobs -/

theorem conserved_history (s₀ : Clockwork κ) :
    Conserved fun s : Clockwork κ => s₀.history <:+ s.history :=
  ⟨keeps_history s₀, fun _ h => h, fun _ _ h => h.trans (List.suffix_cons _ _), fun _ h => h⟩

theorem history_move (s : Clockwork κ) (move : Move κ) : s.history <:+ (s.move move).history := by
  cases move with
  | act conduct => exact (conserved_history s).play conduct (List.suffix_refl _)
  | advance micros => exact List.suffix_refl _
  | poll jobs =>
    cases hdue : s.task.isDue s.now with
    | false =>
      rw [move_poll_of_not_due hdue]
      exact List.suffix_refl _
    | true =>
      rw [move_poll_of_due hdue]
      exact (conserved_history s).dispatch_play jobs (List.suffix_refl _)

/-- A poll that finds its deadline come runs the registered job. -/
theorem history_poll_of_due {s : Clockwork κ} (hdue : s.task.isDue s.now = true) {job : κ}
    (hjob : s.alarm.job = some job) (jobs : κ → Conduct κ) :
    .ran s.now job :: s.history <:+ (s.move (.poll jobs)).history := by
  rw [move_poll_of_due hdue, dispatch, hjob]
  exact (conserved_history (s.begin job)).play (jobs job) (List.suffix_refl _)

/-- An armed alarm runs its job in the next poll or, after all the time that a timer can be set to,
in the one after that. -/
theorem Wound.serves {s : Clockwork κ} (h : Wound s.task s) (harmed : s.alarm.phase = .armed)
    {job : κ} (hjob : s.alarm.job = some job) (jobs : κ → Conduct κ) {micros : Nat}
    (hmicros : 2 ^ 32 ≤ micros) (jobs' : κ → Conduct κ) :
    ∃ time, .ran time job :: s.history <:+
      (((s.move (.poll jobs)).move (.advance micros)).move (.poll jobs')).history := by
  cases hdue : s.task.isDue s.now with
  | true =>
    have hran := history_poll_of_due hdue hjob jobs
    exact ⟨s.now, (hran.trans (history_move _ (.advance micros))).trans (history_move _ _)⟩
  | false =>
    rw [move_poll_of_not_due hdue]
    -- the start is taken if it was not before, and the deadline is over when the time is
    have hlook := h.look
    obtain ⟨-, ⟨ticks, hw⟩ | ⟨-, deadline, htask⟩⟩ := hlook.armed harmed
    · cases hw
    let late := (s.look s.now s.task).move (.advance micros)
    have hlate : late.task.isDue late.now = true := by
      show (s.look s.now s.task).task.isDue (s.now + micros) = true
      have hnear : deadline < s.now + 2 ^ 32 := hlook.near deadline htask
      rw [htask]
      exact decide_eq_true (by omega)
    exact ⟨late.now, history_poll_of_due hlate hjob jobs'⟩

/-- **No arming is lost.**  A clockwork gets through any moves.  Whenever the alarm is armed, a
start waits in the mailbox, or the mailbox is empty and the task has a deadline; a stop never waits
there.  From then on, whatever the jobs do, one poll, at least `2 ^ 32` microseconds and another
poll see the job that was registered last run, before anything else happens to the alarm. -/
theorem armed_served (config : Alarm.Config) (moves : List (Move κ)) :
    ∃ s, afterMoves config moves = some s ∧ (s.alarm.phase = .armed →
      ((∃ ticks, s.mailbox.waiting = some (.start ticks)) ∨
        s.mailbox.waiting = none ∧ ∃ deadline, s.task = .running deadline) ∧
      s.mailbox.waiting ≠ some .stop ∧
      ∃ job, lastJob s.history = some job ∧
        ∀ jobs micros jobs', 2 ^ 32 ≤ micros →
          ∃ s' time,
            afterMoves config (moves ++ [.poll jobs, .advance micros, .poll jobs']) = some s' ∧
              .ran time job :: s.history <:+ s'.history) := by
  have hwound := Wound.moves (s := init config) (wound_init config) moves
  refine ⟨_, afterMoves_eq_foldl config moves, ?_⟩
  intro harmed
  obtain ⟨hsome, hticking⟩ := hwound.armed harmed
  obtain ⟨job, hjob⟩ := Option.isSome_iff_exists.1 hsome
  refine ⟨hticking, ?_, job, hwound.job.symm.trans hjob, ?_⟩
  · intro hstop
    rcases hticking with ⟨ticks, hw⟩ | ⟨hw, -⟩
    · cases hw.symm.trans hstop
    · cases hw.symm.trans hstop
  · intro jobs micros jobs' hmicros
    obtain ⟨time, hran⟩ := hwound.serves harmed hjob jobs hmicros jobs'
    refine ⟨_, time, afterMoves_eq_foldl config _, ?_⟩
    rw [List.foldl_append]
    exact hran

/-- A job that is due in 10 microseconds is still there after 12, when another is registered for
100 microseconds later; the poll that comes now runs the other, which registers the first anew, for
as long as can be. -/
def rearming : List (Move Bool) :=
  [.act (.ask (.register false 10) fun _ => .done), .poll fun _ => .done, .advance 12,
    .act (.ask (.register true 100) fun _ => .done),
    .poll fun
      | true => .ask (.register false 0xFFFFFFFF) fun _ => .done
      | false => .done]

/-- The start that a job gives in place of its own, which it has overtaken, is not lost. -/
theorem armed_served_rearming :
    ∃ s s' time, afterMoves {} rearming = some s ∧ s.alarm.phase = .armed ∧
      afterMoves {} (rearming ++ [.poll fun _ => .done, .advance (2 ^ 32), .poll fun _ => .done]) =
        some s' ∧ .ran time false :: s.history <:+ s'.history := by
  obtain ⟨s, hs, hserved⟩ := armed_served {} rearming
  obtain rfl : s = rearming.foldl move (init {}) :=
    Option.some.inj (hs.symm.trans (afterMoves_eq_foldl {} rearming))
  obtain ⟨-, -, job, hjob, hruns⟩ := hserved rfl
  obtain rfl : false = job := Option.some.inj hjob
  obtain ⟨s', time, hs', hran⟩ := hruns (fun _ => .done) (2 ^ 32) (fun _ => .done) (Nat.le_refl _)
  exact ⟨_, s', time, hs, rfl, hs', hran⟩

end Clockwork

end ElementHost
