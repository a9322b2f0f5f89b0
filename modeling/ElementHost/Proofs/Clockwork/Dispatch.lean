import ElementHost.Proofs.Clockwork.Basic

/-!
# How often a registered job runs

An alarm is to run each registered job once.  It always runs the job registered last, and no job
more than twice; but it may run one twice.  When a poll finds its deadline come while the start of
a later registration waits in the mailbox, the later job runs, too early; and the start that was
waiting makes it run again.  `oneShot_iff` says that this is the only way.

* `lastJob`, `servings`, `registrations`, what a history tells;
* `EachRun`, a law for every run of a job, and `eachRun_run_iff`, the law poll by poll;
* `Served`, what the mailbox, the task and the history of a clockwork keep with each other;
* `Overtaken`, `Repeats` and `oneShot_iff`.
-/

namespace ElementHost

open Alarm (Command Keeper Reply)
open Countdown (Task)

namespace Clockwork

variable {κ : Type}

/-! ### Histories -/

/-- The job registered last. -/
def lastJob : List (Event κ) → Option κ
  | [] => none
  | .registered _ job :: _ => some job
  | .destroyed _ :: earlier => lastJob earlier
  | .ran _ _ :: earlier => lastJob earlier

/-- How often a job was run since the last registration. -/
def servings : List (Event κ) → Nat
  | [] => 0
  | .registered _ _ :: _ => 0
  | .destroyed _ :: earlier => servings earlier
  | .ran _ _ :: earlier => servings earlier + 1

/-- The number of registrations. -/
def registrations : List (Event κ) → Nat
  | [] => 0
  | .registered _ _ :: earlier => registrations earlier + 1
  | .destroyed _ :: earlier => registrations earlier
  | .ran _ _ :: earlier => registrations earlier

/-- What holds of every run of a job, given the history before it. -/
def EachRun (P : κ → List (Event κ) → Prop) (history : List (Event κ)) : Prop :=
  ∀ newer event earlier, history = newer ++ event :: earlier →
    ∀ time job, event = .ran time job → P job earlier

theorem eachRun_cons_iff {P : κ → List (Event κ) → Prop} (event : Event κ)
    (history : List (Event κ)) :
    EachRun P (event :: history) ↔
      (∀ time job, event = .ran time job → P job history) ∧ EachRun P history :=
  forall_event_cons_iff event history

theorem registrations_le (newer history : List (Event κ)) :
    registrations history ≤ registrations (newer ++ history) := by
  induction newer with
  | nil => exact Nat.le_refl _
  | cons event newer ih => cases event <;> simp only [List.cons_append, registrations] <;> omega

/-- As long as nothing is registered, the job registered last stays the same, and it is not run
less often. -/
theorem servings_le {history history' : List (Event κ)} (h : history <:+ history')
    (hr : registrations history' = registrations history) :
    lastJob history' = lastJob history ∧ servings history ≤ servings history' := by
  obtain ⟨newer, rfl⟩ := h
  induction newer with
  | nil => exact ⟨rfl, Nat.le_refl _⟩
  | cons event newer ih =>
    have hle := registrations_le newer history
    cases event with
    | registered time job =>
      simp only [List.cons_append, registrations] at hr
      omega
    | destroyed time => exact ih hr
    | ran time job =>
      obtain ⟨hjob, hservings⟩ := ih hr
      exact ⟨hjob, Nat.le_succ_of_le hservings⟩

/-! ### Laws about runs, step by step -/

theorem keeps_eachRun (P : κ → List (Event κ) → Prop) (s₀ : Clockwork κ) :
    (keeper (κ := κ)).Keeps fun s => EachRun P s.history ↔ EachRun P s₀.history := by
  refine keeps_of ?_ ?_ (fun _ _ h => h)
  · intro job delayMicros s h
    show EachRun P (.registered s.now job :: s.history) ↔ _
    rw [eachRun_cons_iff]
    simpa using h
  · intro s h
    show EachRun P (.destroyed s.now :: s.history) ↔ _
    rw [eachRun_cons_iff]
    simpa using h

theorem eachRun_expire_iff (P : κ → List (Event κ) → Prop) (jobs : Jobs κ) (s : Clockwork κ) :
    EachRun P (s.expire jobs).history ↔
      EachRun P s.history ∧ ∀ job, s.alarm.job = some job → P job s.history := by
  cases hjob : s.alarm.job with
  | none =>
    rw [expire_of_none hjob]
    simp
  | some job =>
    have hscript : EachRun P ((s.begin job).obey (jobs job)).settle.history ↔
        EachRun P (s.begin job).history :=
      Script.final_induction (keeps_eachRun P (s.begin job)).answer (jobs job) Iff.rfl
    rw [expire_of_some hjob, hscript]
    show EachRun P (.ran s.now job :: s.history) ↔ _
    rw [eachRun_cons_iff]
    simp [and_comm]

/-- The law holds of the job that a poll runs now, if it runs one. -/
def NextRun (P : κ → List (Event κ) → Prop) (s : Clockwork κ) : Prop :=
  s.task.isDue s.now = true → ∀ job, s.alarm.job = some job → P job s.history

theorem eachRun_step_iff (P : κ → List (Event κ) → Prop) (s : Clockwork κ) (step : Step κ) :
    EachRun P (s.step step).history ↔
      EachRun P s.history ∧ ∀ jobs, step = .poll jobs → s.NextRun P := by
  cases step with
  | ask c =>
    have hc := (keeps_eachRun P s).answer c s Iff.rfl
    show EachRun P (c.answer keeper s).2.history ↔ _
    simp [hc]
  | advance micros =>
    show EachRun P s.history ↔ _
    simp
  | poll jobs =>
    show EachRun P (s.poll jobs).history ↔ _
    cases hdue : s.task.isDue s.now with
    | false =>
      rw [poll_of_not_due hdue]
      show EachRun P s.history ↔ _
      simp [NextRun, hdue]
    | true =>
      rw [poll_of_due hdue]
      show EachRun P (s.expire jobs).history ↔ _
      rw [eachRun_expire_iff]
      simp [NextRun, hdue]

/-- A law holds of all runs of jobs if it holds in every poll. -/
theorem eachRun_run_iff (P : κ → List (Event κ) → Prop) (config : Alarm.Config)
    (steps : List (Step κ)) :
    EachRun P (run config steps).history ↔
      ∀ earlier step later, steps = earlier ++ step :: later →
        ∀ jobs, step = .poll jobs → (run config earlier).NextRun P := by
  induction steps using List.reverseRecOn with
  | nil => simp [run, init, EachRun]
  | append_singleton steps step ih =>
    rw [run_concat, eachRun_step_iff, ih, forall_moment_concat_iff (P := fun earlier step =>
      ∀ jobs, step = Step.poll jobs → (run config earlier).NextRun P)]

/-! ### The mailbox, the task and the history -/

/-- The job of the alarm is the one registered last.  If a start waits, that job was run at most
`limit` times; and at most once, if the task runs. -/
structure Served (limit : Nat) (task : Task) (s : Clockwork κ) : Prop where
  job : s.alarm.job = lastJob s.history
  waiting : ∀ ticks, s.mailbox.waiting = some (.start ticks) →
    (lastJob s.history).isSome ∧ servings s.history ≤ limit
  running : ∀ deadline, task = .running deadline →
    (lastJob s.history).isSome ∧ servings s.history ≤ 1

theorem keeps_served (limit : Nat) (task : Task) :
    (keeper (κ := κ)).Keeps (Served limit task) := by
  refine keeps_of ?_ ?_ ?_
  · intro job delayMicros s _
    exact ⟨rfl, fun _ _ => ⟨rfl, Nat.zero_le _⟩, fun _ _ => ⟨rfl, Nat.zero_le _⟩⟩
  · intro s h
    exact ⟨h.job, by rintro ticks ⟨⟩, h.running⟩
  · intro b s h
    exact ⟨h.job, h.waiting, h.running⟩

theorem Served.begin {task : Task} {s : Clockwork κ} (h : Served 0 task s) (job : κ) :
    Served 1 .idle (s.begin job) where
  job := h.job
  waiting ticks hw := ⟨(h.waiting ticks hw).1, Nat.succ_le_succ (h.waiting ticks hw).2⟩
  running := by rintro deadline ⟨⟩

/-- A task that runs after a look into the mailbox ran before or found a start. -/
theorem running_look {s : Clockwork κ} {now : Nat} {task : Task} {deadline : Nat}
    (h : (s.look now task).task = .running deadline) :
    task = .running deadline ∨ ∃ ticks, s.mailbox.waiting = some (.start ticks) := by
  cases hw : s.mailbox.waiting with
  | none =>
    simp only [look, Task.next, hw] at h
    exact .inl h
  | some order =>
    simp only [look, Task.next, hw] at h
    cases order with
    | stop => cases h
    | start ticks => exact .inr ⟨ticks, rfl⟩

theorem Served.look {task : Task} {s : Clockwork κ} (h : Served 1 task s) (now : Nat) :
    Served 0 (s.look now task).task (s.look now task) := by
  refine ⟨h.job, by rintro ticks ⟨⟩, ?_⟩
  intro deadline hrunning
  rcases running_look hrunning with htask | ⟨ticks, hw⟩
  · exact h.running deadline htask
  · exact h.waiting ticks hw

theorem Served.le_succ {limit : Nat} {task : Task} {s : Clockwork κ} (h : Served limit task s) :
    Served (limit + 1) task s :=
  ⟨h.job, fun ticks hw => ⟨(h.waiting ticks hw).1, Nat.le_succ_of_le (h.waiting ticks hw).2⟩,
    h.running⟩

theorem Served.expire {task : Task} {s : Clockwork κ} (h : Served 0 task s) (jobs : Jobs κ) :
    Served 1 .idle (s.expire jobs) := by
  apply expire_induction (keeps_served 1 .idle)
  · intro s h
    exact ⟨h.job, h.waiting, h.running⟩
  · intro _
    exact ⟨h.job, h.le_succ.waiting, by rintro deadline ⟨⟩⟩
  · intro job _
    exact h.begin job

theorem Served.step {s : Clockwork κ} (h : Served 0 s.task s) (step : Step κ) :
    Served 0 (s.step step).task (s.step step) := by
  cases step with
  | ask c =>
    have hc := (keeps_served 0 s.task).answer c s h
    rwa [← ((keeps_scene s).answer c s ⟨rfl, rfl⟩).2] at hc
  | advance micros => exact ⟨h.job, h.waiting, h.running⟩
  | poll jobs =>
    show Served 0 (s.poll jobs).task (s.poll jobs)
    cases hdue : s.task.isDue s.now with
    | false =>
      rw [poll_of_not_due hdue]
      exact h.le_succ.look s.now
    | true =>
      rw [poll_of_due hdue]
      exact (h.expire jobs).look s.now

theorem served_run (config : Alarm.Config) (steps : List (Step κ)) :
    Served 0 (run config steps).task (run config steps) := by
  induction steps using List.reverseRecOn with
  | nil => exact ⟨rfl, by rintro ticks ⟨⟩, by rintro deadline ⟨⟩⟩
  | append_singleton steps step ih =>
    rw [run_concat]
    exact ih.step step

/-- A task whose deadline has come runs, and it runs for a job that was run at most once. -/
theorem Served.of_isDue {s : Clockwork κ} (h : Served 0 s.task s)
    (hdue : s.task.isDue s.now = true) :
    (lastJob s.history).isSome ∧ servings s.history ≤ 1 := by
  cases htask : s.task with
  | idle =>
    rw [htask] at hdue
    cases hdue
  | running deadline => exact h.running deadline htask

/-! ### Histories only grow -/

theorem keeps_history (s₀ : Clockwork κ) :
    (keeper (κ := κ)).Keeps fun s => s₀.history <:+ s.history :=
  keeps_of (fun _ _ _ h => h.trans (List.suffix_cons _ _))
    (fun _ h => h.trans (List.suffix_cons _ _)) fun _ _ h => h

/-- An expiry writes down the job that it runs. -/
theorem history_expire {s : Clockwork κ} {job : κ} (hjob : s.alarm.job = some job)
    (jobs : Jobs κ) : .ran s.now job :: s.history <:+ (s.expire jobs).history := by
  rw [expire_of_some hjob]
  exact Script.final_induction (keeps_history (s.begin job)).answer (jobs job)
    (List.suffix_refl _)

theorem history_step (s : Clockwork κ) (step : Step κ) :
    s.history <:+ (s.step step).history := by
  cases step with
  | ask c => exact (keeps_history s).answer c s (List.suffix_refl _)
  | advance micros => exact List.suffix_refl _
  | poll jobs =>
    show _ <:+ (s.poll jobs).history
    cases hdue : s.task.isDue s.now with
    | false =>
      rw [poll_of_not_due hdue]
      exact List.suffix_refl _
    | true =>
      rw [poll_of_due hdue]
      exact expire_induction (keeps_history s) (fun _ h => h) (fun _ => List.suffix_refl _)
        (fun _ _ => List.suffix_cons _ _) jobs

theorem history_run (config : Alarm.Config) (steps more : List (Step κ)) :
    (run config steps).history <:+ (run config (steps ++ more)).history := by
  induction more using List.reverseRecOn with
  | nil => simp
  | append_singleton more step ih =>
    rw [← List.append_assoc, run_concat]
    exact ih.trans (history_step _ step)

/-! ### Jobs that run twice -/

/-- The deadline of the task has come, but the start of a later registration waits. -/
def Overtaken (s : Clockwork κ) : Prop :=
  s.task.isDue s.now = true ∧ ∃ ticks, s.mailbox.waiting = some (.start ticks)

/-- Nothing was registered since, and only a start that was waiting then may be waiting. -/
structure Unregistered (s₀ s : Clockwork κ) : Prop where
  registrations : registrations s.history = registrations s₀.history
  servings : servings s.history = servings s₀.history
  waiting : ∀ ticks, s.mailbox.waiting = some (.start ticks) →
    s₀.mailbox.waiting = some (.start ticks)

theorem keeps_unregistered (s₀ : Clockwork κ) :
    (keeper (κ := κ)).Keeps fun s => servings s.history = 0 ∨ Unregistered s₀ s := by
  refine keeps_of (fun _ _ _ _ => .inl rfl) ?_ ?_
  · intro s h
    exact h.imp id fun h => ⟨h.registrations, h.servings, by rintro ticks ⟨⟩⟩
  · intro b s h
    exact h.imp id fun h => ⟨h.registrations, h.servings, h.waiting⟩

theorem unregistered_refl (s : Clockwork κ) : Unregistered s s := ⟨rfl, rfl, fun _ h => h⟩

/-- An expiry registers a job, or it leaves in the mailbox no start but the one that was there. -/
theorem expire_unregistered (jobs : Jobs κ) (s : Clockwork κ) :
    servings (s.expire jobs).history = 0 ∨
      registrations (s.expire jobs).history = registrations s.history ∧
        ∀ ticks, (s.expire jobs).mailbox.waiting = some (.start ticks) →
          s.mailbox.waiting = some (.start ticks) := by
  cases hjob : s.alarm.job with
  | none =>
    rw [expire_of_none hjob]
    exact .inr ⟨rfl, fun _ hw => hw⟩
  | some job =>
    have hscript := Script.final_induction (keeps_unregistered (s.begin job)).answer (jobs job)
      (.inr (unregistered_refl (s.begin job)))
    rw [expire_of_some hjob]
    exact hscript.imp id fun hu => ⟨hu.registrations, hu.waiting⟩

/-- A task that runs, after a step, for a job that was run already did so before the step, or the
step was a poll in which the start of that job was overtaken. -/
theorem Served.running_step {s : Clockwork κ} (h : Served 0 s.task s) {step : Step κ}
    {deadline : Nat} (hrunning : (s.step step).task = .running deadline)
    (hserved : servings (s.step step).history ≠ 0) :
    registrations (s.step step).history = registrations s.history ∧
      (s.task = .running deadline ∧ servings s.history ≠ 0 ∨
        s.Overtaken ∧ ∃ jobs, step = .poll jobs) := by
  cases step with
  | ask c =>
    have htask := ((keeps_scene s).answer c s ⟨rfl, rfl⟩).2
    rcases (keeps_unregistered s).answer c s (.inr (unregistered_refl s)) with hzero | hc
    · exact absurd hzero hserved
    · exact ⟨hc.registrations, .inl ⟨htask ▸ hrunning, hc.servings ▸ hserved⟩⟩
  | advance micros => exact ⟨rfl, .inl ⟨hrunning, hserved⟩⟩
  | poll jobs =>
    replace hrunning : (s.poll jobs).task = .running deadline := hrunning
    replace hserved : servings (s.poll jobs).history ≠ 0 := hserved
    show registrations (s.poll jobs).history = _ ∧ _
    cases hdue : s.task.isDue s.now with
    | false =>
      rw [poll_of_not_due hdue] at hrunning hserved ⊢
      rcases running_look hrunning with htask | ⟨ticks, hw⟩
      · exact ⟨rfl, .inl ⟨htask, hserved⟩⟩
      -- a start that is taken in time belongs to a job that was not run yet
      · exact absurd (Nat.le_zero.1 (h.waiting ticks hw).2) hserved
    | true =>
      rw [poll_of_due hdue] at hrunning hserved ⊢
      -- the old deadline is gone, so the task has taken a start
      rcases running_look hrunning with ⟨⟨⟩⟩ | ⟨ticks, hw⟩
      rcases expire_unregistered jobs s with hzero | ⟨hr, hwaiting⟩
      · exact absurd hzero hserved
      · exact ⟨hr, .inr ⟨⟨hdue, ticks, hwaiting ticks hw⟩, jobs, rfl⟩⟩

/-- If a task runs for a job that was run already, then the start of that job has been overtaken,
and nothing was registered since. -/
theorem exists_overtaken {config : Alarm.Config} {steps : List (Step κ)} {deadline : Nat}
    (hrunning : (run config steps).task = .running deadline)
    (hserved : servings (run config steps).history ≠ 0) :
    ∃ earlier jobs between, steps = earlier ++ .poll jobs :: between ∧
      (run config earlier).Overtaken ∧
      registrations (run config steps).history = registrations (run config earlier).history := by
  -- from the last step backwards, to the poll in which the start was overtaken
  induction steps using List.reverseRecOn with
  | nil => cases hrunning
  | append_singleton steps step ih =>
    rw [run_concat] at hrunning hserved
    obtain ⟨hr, ⟨htask, hbefore⟩ | ⟨hovertaken, jobs, rfl⟩⟩ :=
      (served_run config steps).running_step hrunning hserved
    · obtain ⟨earlier, jobs, between, rfl, hovertaken, hr'⟩ := ih htask hbefore
      refine ⟨earlier, jobs, between ++ [step], by simp, hovertaken, ?_⟩
      rw [run_concat]
      exact hr.trans hr'
    · refine ⟨steps, jobs, [], rfl, hovertaken, ?_⟩
      rw [run_concat]
      exact hr

/-- In some poll a start is overtaken, and a later poll finds its deadline come, without any
registration in between. -/
def Repeats (config : Alarm.Config) (steps : List (Step κ)) : Prop :=
  ∃ earlier jobs between jobs' later s s',
    steps = earlier ++ .poll jobs :: between ++ .poll jobs' :: later ∧
    after config earlier = some s ∧ s.Overtaken ∧
    after config (earlier ++ .poll jobs :: between) = some s' ∧ s'.task.isDue s'.now = true ∧
    registrations s'.history = registrations s.history

/-- A task whose start has been overtaken has run the job of that start. -/
theorem Overtaken.servings_poll {config : Alarm.Config} {earlier between : List (Step κ)}
    {jobs : Jobs κ} (h : (run config earlier).Overtaken)
    (hr : registrations (run config (earlier ++ .poll jobs :: between)).history =
      registrations (run config earlier).history) :
    servings (run config (earlier ++ .poll jobs :: between)).history ≠ 0 := by
  have hserved := served_run config earlier
  obtain ⟨job, hjob⟩ := Option.isSome_iff_exists.1 (hserved.of_isDue h.1).1
  have hpoll : (run config (earlier ++ [.poll jobs])).history =
      ((run config earlier).expire jobs).history := by
    rw [run_concat]
    show ((run config earlier).poll jobs).history = _
    rw [poll_of_due h.1]
    rfl
  -- what the poll wrote down is still there, and no registration lies above it
  have hrun := history_run config (earlier ++ [.poll jobs]) between
  rw [List.append_assoc, List.singleton_append, hpoll] at hrun
  have hle := servings_le ((history_expire (hserved.job.trans hjob) jobs).trans hrun) hr
  exact Nat.ne_of_gt (Nat.lt_of_lt_of_le (Nat.succ_pos _) hle.2)

/-- **Which jobs run twice.**  A clockwork gets through any steps.  Every job that runs is the one
registered last, and it was run at most once before.  It was not run before at all, whenever a job
runs, if and only if no poll overtakes a start that comes to its own deadline later on, undisturbed
by any registration. -/
theorem oneShot_iff (config : Alarm.Config) (steps : List (Step κ)) :
    ∃ s, after config steps = some s ∧
      EachRun (fun job earlier => lastJob earlier = some job ∧ servings earlier ≤ 1) s.history ∧
      (EachRun (fun _ earlier => servings earlier = 0) s.history ↔ ¬ Repeats config steps) := by
  refine ⟨_, after_eq_run config steps, ?_, ?_⟩
  · rw [eachRun_run_iff]
    intro earlier _ _ _ _ _ hdue job hjob
    have hserved := served_run config earlier
    exact ⟨hserved.job.symm.trans hjob, (hserved.of_isDue hdue).2⟩
  · rw [eachRun_run_iff]
    constructor
    · rintro hlaw ⟨earlier, jobs, between, jobs', later, s, s', rfl, hs, ho, hs', hdue, hr⟩
      rw [after_eq_run] at hs hs'
      cases hs
      cases hs'
      have hserved := served_run config (earlier ++ .poll jobs :: between)
      obtain ⟨job, hjob⟩ := Option.isSome_iff_exists.1 (hserved.of_isDue hdue).1
      exact ho.servings_poll hr
        (hlaw _ _ later rfl jobs' rfl hdue job (hserved.job.trans hjob))
    · rintro hno earlier _ later rfl jobs' rfl hdue job _
      by_contra hserved
      cases htask : (run config earlier).task with
      | idle =>
        rw [htask] at hdue
        cases hdue
      | running deadline =>
        obtain ⟨earlier, jobs, between, rfl, ho, hr⟩ := exists_overtaken htask hserved
        exact hno ⟨earlier, jobs, between, jobs', later, _, _, rfl, after_eq_run _ _, ho,
          after_eq_run _ _, hdue, hr⟩

/-- A job that is due in 10 microseconds is still there after 12, when another is registered for
100 microseconds later; the task is polled only now, and when those are over. -/
def repeated : List (Step Bool) :=
  [.ask (.register false 10), .poll fun _ => .done, .advance 12, .ask (.register true 100),
    .poll fun _ => .done, .advance 100, .poll fun _ => .done]

/-- A job that was registered once may run twice. -/
theorem not_oneShot_repeated :
    ∃ s, after {} repeated = some s ∧
      s.history = [.ran 112 true, .ran 12 true, .registered 12 true, .registered 0 false] ∧
      ¬ EachRun (fun _ earlier => servings earlier = 0) s.history := by
  refine ⟨_, after_eq_run {} repeated, rfl, ?_⟩
  intro h
  cases h [] (.ran 112 true) [.ran 12 true, .registered 12 true, .registered 0 false] rfl 112 true
    rfl

end Clockwork

end ElementHost
