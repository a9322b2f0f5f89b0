import ElementHost.Proofs.Countdown.Scene
import ElementHost.Proofs.Moments

/-!
# Which start an expiry belongs to

The task and its mailbox on their own: anybody posts orders at any time, the clock moves, the task
is polled, and an expiry posts orders as well.  Whatever goes into the mailbox or out of it is
written down.

* `Desk`, `Desk.refill` and `Desk.after`, the desk after a list of steps;
* `Desk.step`, the steps as functions, with `Desk.after_concat`;
* `Stage`, the loops of the task turn by turn, and `Desk.run_stage`: a poll is over after four
  turns, and comes to what `Task.poll` says;
* `Desk.Serving`, what an expiry can look back on, and `Desk.Tended`, what task and mailbox keep
  with the history;
* `Desk.expiries_served`, the law of every run.
-/

namespace ElementHost.Countdown

/-! ### The desk -/

/-- What happens at a desk. -/
inductive Desk.Event
  | posted (time : ℕ) (order : Order)
  | taken (time : ℕ) (order : Order)
  | expired (time : ℕ)
  /-- A poll of the task is over. -/
  | polled (time : ℕ)
  deriving DecidableEq

/-- The task, its mailbox and their surroundings. -/
structure Desk extends Scene Desk.Event where
  mailbox : Mailbox := {}

/-- Computations at a desk. -/
abbrev DeskM := StateM Desk

namespace Desk

/-- A desk at which something has just happened. -/
def note (event : ℕ → Event) (s : Desk) : Desk := { s with history := event s.now :: s.history }

/-- A desk whose mailbox has just been given another content.  An order that is there now has been
posted; one that is gone has been taken. -/
def refill (mailbox : Mailbox) (s : Desk) : Desk :=
  match s.mailbox.waiting, mailbox.waiting with
  | _, some order => { s.note (.posted · order) with mailbox }
  | some order, none => { s.note (.taken · order) with mailbox }
  | none, none => { s with mailbox }

instance : MonadStateOf Mailbox DeskM where
  get := return (← getThe Desk).mailbox
  set mailbox := modifyThe Desk (refill mailbox)
  modifyGet f := modifyGetThe Desk fun s => ((f s.mailbox).1, s.refill (f s.mailbox).2)

instance : MonadLift (SceneM Event) DeskM where
  monadLift f := modifyGetThe Desk fun s =>
    ((f.run s.toScene).1, { s with toScene := (f.run s.toScene).2 })

/-- What an expiry does: it is written down, and then it posts orders. -/
def expiry (orders : List Order) : DeskM Unit := do
  liftM (Scene.note Event.expired)
  forM orders fun order => modifyThe Mailbox (Mailbox.post order)

/-- Something that happens at a desk. -/
inductive Step
  | post (order : Order)
  | advance (micros : ℕ)
  /-- One poll of the task, with the orders that an expiry in it posts. -/
  | poll (orders : List Order)

/-- Performs a step. -/
def Step.perform : Step → DeskM Unit
  | post order => modifyThe Mailbox (Mailbox.post order)
  | advance micros => liftM (Scene.advance (ε := Event) micros)
  | poll orders => do
    Scene.poll Event (expiry orders)
    liftM (Scene.note Event.polled)

/-- The desk after some steps, from the beginning. -/
def after (steps : List Step) : Desk := steps.foldl (fun s step => (step.perform.run s).2) {}

/-! ### Steps as functions -/

/-- A desk to which an order has just been posted. -/
def post (order : Order) (s : Desk) : Desk :=
  { s.note (.posted · order) with mailbox := ⟨some order⟩ }

/-- A desk whose mailbox has just been emptied. -/
def emptied (s : Desk) : Desk := s.refill {}

/-- A desk after an expiry. -/
def expire (orders : List Order) (s : Desk) : Desk :=
  orders.foldl (fun s order => s.post order) (s.note .expired)

/-- A desk whose task has just looked into the mailbox. -/
def look (now : ℕ) (task : Task) (s : Desk) : Desk :=
  { s.emptied with task := task.next now s.mailbox }

/-- The desk after a step. -/
def step (s : Desk) : Step → Desk
  | .post order => s.post order
  | .advance micros => { s with now := s.now + micros }
  | .poll orders =>
    let s' := if s.task.isDue s.now then (s.expire orders).look s.now .idle
      else s.look s.now s.task
    s'.note .polled

theorem step_poll_of_due {s : Desk} (h : s.task.isDue s.now = true) (orders : List Order) :
    s.step (.poll orders) = ((s.expire orders).look s.now .idle).note .polled := by
  rw [step, if_pos h]

theorem step_poll_of_not_due {s : Desk} (h : s.task.isDue s.now = false) (orders : List Order) :
    s.step (.poll orders) = (s.look s.now s.task).note .polled := by
  rw [step, h]
  rfl

@[simp] theorem mailbox_emptied (s : Desk) : s.emptied.mailbox = {} := by
  unfold emptied refill
  cases s.mailbox.waiting <;> rfl

theorem emptied_of_none {s : Desk} (h : s.mailbox.waiting = none) : s.emptied = s := by
  obtain ⟨scene, mailbox⟩ := s
  obtain rfl : mailbox = {} := by cases mailbox; cases h; rfl
  rfl

theorem emptied_of_some {s : Desk} {order : Order} (h : s.mailbox.waiting = some order) :
    s.emptied = { s.note (.taken · order) with mailbox := {} } := by
  unfold emptied refill
  rw [h]

theorem run_post (order : Order) (s : Desk) :
    (modifyThe Mailbox (Mailbox.post order) : DeskM Unit).run s = ((), s.post order) := by
  show ((), s.refill ⟨some order⟩) = _
  unfold refill
  cases s.mailbox.waiting <;> rfl

theorem run_take (s : Desk) :
    (modifyGetThe Mailbox Mailbox.take : DeskM (Option Order)).run s =
      (s.mailbox.waiting, s.emptied) := rfl

theorem run_obeyNext (now : ℕ) (task : Task) (s : Desk) :
    (task.obeyNext now : DeskM Task).run s = (task.next now s.mailbox, s.emptied) := by
  unfold Task.obeyNext Task.next
  rw [StateT.run_bind, run_take]
  cases s.mailbox.waiting <;> rfl

theorem run_expiry (orders : List Order) (s : Desk) :
    (expiry orders).run s = ((), s.expire orders) := by
  have hposts (s : Desk) :
      (forM orders fun order => (modifyThe Mailbox (Mailbox.post order) : DeskM Unit)).run s =
        ((), orders.foldl (fun s order => s.post order) s) := by
    induction orders generalizing s with
    | nil => rfl
    | cons order orders ih =>
      rw [List.forM_cons, StateT.run_bind, run_post]
      exact ih (s.post order)
  exact hposts (s.note .expired)

/-- A poll of the task, given what the expiry does. -/
theorem run_poll {onExpiry : DeskM Unit} {s s' : Desk} (h : onExpiry.run s = ((), s')) :
    (s.task.poll s.now onExpiry).run s =
      if s.task.isDue s.now then (Task.idle.next s.now s'.mailbox, s'.emptied)
      else (s.task.next s.now s.mailbox, s.emptied) := by
  cases hdue : s.task.isDue s.now with
  | false =>
    rw [Task.poll_of_not_due hdue, run_obeyNext]
    rfl
  | true =>
    rw [Task.poll_of_due hdue, StateT.run_bind, h]
    exact run_obeyNext ..

theorem run_step (step : Step) (s : Desk) : step.perform.run s = ((), s.step step) := by
  cases step with
  | post order => exact run_post order s
  | advance micros => rfl
  | poll orders =>
    have hpoll := run_poll (run_expiry orders s)
    show ((s.task.poll s.now (expiry orders) >>= fun task =>
      liftM (Scene.resume (ε := Event) task) >>= fun _ =>
        liftM (Scene.note Event.polled) : DeskM Unit)).run s = _
    rw [StateT.run_bind, hpoll, Desk.step]
    cases s.task.isDue s.now <;> rfl

theorem after_concat (steps : List Step) (step : Step) :
    after (steps ++ [step]) = (after steps).step step := by
  simp [after, run_step]

end Desk

/-! ### The loops of the task -/

/-- Where the task is in its loops while it is polled. -/
inductive Stage
  /-- In the outer loop, it wants an order. -/
  | waiting
  /-- It has taken an order. -/
  | obeying (order : Order)
  /-- In the inner loop, it wants the deadline to come or an order, whichever is first.  It does not
  see that a deadline has come unless it has looked at this deadline before. -/
  | selecting (deadline : ℕ) (seen : Bool)

/-- Where the task goes on when it is polled. -/
def Task.stage : Task → Stage
  | idle => .waiting
  | running deadline => .selecting deadline true

namespace Stage

variable {m : Type → Type} [Monad m] [MonadStateOf Mailbox m]

/-- One turn of the loops: the task is suspended, or it goes on. -/
def turn (now : ℕ) (onExpiry : m Unit) : Stage → m (Task ⊕ Stage)
  | waiting => do
    match ← modifyGetThe Mailbox Mailbox.take with
    | none => return .inl .idle
    | some order => return .inr (.obeying order)
  | obeying (.start ticks) => return .inr (.selecting (now + ticks.toNat) false)
  | obeying .stop => return .inr .waiting
  | selecting deadline seen => do
    if seen && deadline ≤ now then
      onExpiry
      return .inr .waiting
    else
      match ← modifyGetThe Mailbox Mailbox.take with
      | none => return .inl (.running deadline)
      | some order => return .inr (.obeying order)

/-- Goes through the loops until the task is suspended; there is no result if that takes more turns
than are given. -/
def run (now : ℕ) (onExpiry : m Unit) : ℕ → Stage → OptionT m Task
  | 0, _ => failure
  | turns + 1, stage => do
    match ← (stage.turn now onExpiry : m (Task ⊕ Stage)) with
    | .inl task => return task
    | .inr stage => stage.run now onExpiry turns

end Stage

namespace Desk

section Loops

variable {now : ℕ} {onExpiry : DeskM Unit} {stage stage' : Stage} {task : Task} {s s' : Desk}

theorem run_of_suspended (h : (stage.turn now onExpiry).run s = (.inl task, s')) (turns : ℕ) :
    (stage.run now onExpiry (turns + 1)).run.run s = (some task, s') := by
  simp only [Stage.run, Option.elimM, OptionT.run_bind, OptionT.run_monadLift, monadLift_self,
    bind_map_left, Option.elim_some, StateT.run_bind, h]
  rfl

theorem run_of_going (h : (stage.turn now onExpiry).run s = (.inr stage', s')) (turns : ℕ) :
    (stage.run now onExpiry (turns + 1)).run.run s =
      (stage'.run now onExpiry turns).run.run s' := by
  simp only [Stage.run, Option.elimM, OptionT.run_bind, OptionT.run_monadLift, monadLift_self,
    bind_map_left, Option.elim_some, StateT.run_bind, h]
  rfl

theorem turn_waiting (s : Desk) :
    (Stage.waiting.turn now onExpiry).run s =
      (s.mailbox.waiting.elim (.inl .idle) fun order => .inr (.obeying order), s.emptied) := by
  rw [Stage.turn, StateT.run_bind, run_take]
  cases s.mailbox.waiting <;> rfl

/-- A deadline that has not come, or has not been looked at before, lets an order through. -/
theorem turn_selecting {deadline : ℕ} {seen : Bool} (h : ¬ (seen ∧ deadline ≤ now)) (s : Desk) :
    (Stage.turn now onExpiry (.selecting deadline seen)).run s =
      (s.mailbox.waiting.elim (.inl (.running deadline)) fun order => .inr (.obeying order),
        s.emptied) := by
  have hfalse : ¬ ((seen && decide (deadline ≤ now)) = true) := by simpa using h
  rw [Stage.turn, if_neg hfalse, StateT.run_bind, run_take]
  cases s.mailbox.waiting <;> rfl

/-- A task that has taken an order is suspended two turns later. -/
theorem run_obeying (order : Order) (h : s.mailbox.waiting = none) (turns : ℕ) :
    ((Stage.obeying order).run now onExpiry (turns + 2)).run.run s =
      (some (Task.obey now order), s) := by
  cases order with
  | start ticks =>
    have hunseen : ¬ (false ∧ now + ticks.toNat ≤ now) := by simp
    have hturn : (Stage.turn now onExpiry (.selecting (now + ticks.toNat) false)).run s =
        (.inl (.running (now + ticks.toNat)), s) := by
      rw [turn_selecting hunseen, h, emptied_of_none h]
      rfl
    rw [run_of_going rfl]
    exact run_of_suspended hturn turns
  | stop =>
    have hturn : (Stage.waiting.turn now onExpiry).run s = (.inl .idle, s) := by
      rw [turn_waiting, h, emptied_of_none h]
      rfl
    rw [run_of_going rfl]
    exact run_of_suspended hturn turns

/-- A task that looks into the mailbox is suspended at the latest two turns later. -/
theorem run_looking (hlook : (stage.turn now onExpiry).run s =
      (s.mailbox.waiting.elim (.inl task) fun order => .inr (.obeying order), s.emptied))
    (turns : ℕ) :
    (stage.run now onExpiry (turns + 3)).run.run s =
      (some (task.next now s.mailbox), s.emptied) := by
  cases hw : s.mailbox.waiting with
  | none =>
    rw [hw] at hlook
    rw [run_of_suspended hlook, Task.next, hw]
  | some order =>
    rw [hw] at hlook
    rw [run_of_going hlook, run_obeying order (by simp), Task.next, hw]

/-- A poll is over after four turns, whatever the expiry does. -/
theorem run_stage (now : ℕ) (onExpiry : DeskM Unit) (task : Task) (turns : ℕ) (s : Desk) :
    (task.stage.run now onExpiry (turns + 4)).run.run s =
      (some <$> task.poll now onExpiry).run s := by
  cases hdue : task.isDue now with
  | false =>
    rw [Task.poll_of_not_due hdue, StateT.run_map, run_obeyNext]
    cases task with
    | idle => exact run_looking (turn_waiting s) (turns + 1)
    | running deadline =>
      have hnot : ¬ (true ∧ deadline ≤ now) := by simpa [Task.isDue] using hdue
      exact run_looking (turn_selecting hnot s) (turns + 1)
  | true =>
    cases task with
    | idle => cases hdue
    | running deadline =>
      -- the expiry takes a turn of its own, and the task goes on from the outer loop
      have hturn : (Stage.turn now onExpiry (.selecting deadline true)).run s =
          (.inr .waiting, (onExpiry.run s).2) := by
        have hle : deadline ≤ now := of_decide_eq_true hdue
        simp [Stage.turn, hle]
        rfl
      have hpoll : (do onExpiry; Task.idle.obeyNext now : DeskM Task).run s =
          (Task.idle.next now (onExpiry.run s).2.mailbox, (onExpiry.run s).2.emptied) :=
        run_obeyNext now .idle (onExpiry.run s).2
      rw [Task.poll_of_due hdue, StateT.run_map, hpoll, Task.stage, run_of_going hturn]
      exact run_looking (turn_waiting _) turns

end Loops

/-! ### Histories -/

/-- A post, or the end of a poll. -/
def Event.IsAside : Event → Prop
  | posted _ _ => True
  | polled _ => True
  | taken _ _ => False
  | expired _ => False

/-- A start of so many ticks, taken at this time, is the order that was taken last; the poll in
which it was taken is over, and there was no expiry since. -/
def Serving (time : ℕ) (ticks : UInt32) (history : List Event) : Prop :=
  ∃ since before, history = since ++ .taken time (.start ticks) :: before ∧
    (∃ later, .polled later ∈ since) ∧ ∀ event ∈ since, event.IsAside

/-- Before each expiry a start was served whose time is over by then. -/
def EachServed (history : List Event) : Prop :=
  ∀ newer event earlier, history = newer ++ event :: earlier → ∀ now, event = .expired now →
    ∃ time ticks, Serving time ticks earlier ∧ time + ticks.toNat ≤ now

/-- The number of expiries. -/
def expiries : List Event → ℕ
  | [] => 0
  | .expired _ :: earlier => expiries earlier + 1
  | _ :: earlier => expiries earlier

/-- The number of starts that were taken. -/
def startsTaken : List Event → ℕ
  | [] => 0
  | .taken _ (.start _) :: earlier => startsTaken earlier + 1
  | _ :: earlier => startsTaken earlier

/-- The number of starts that were posted. -/
def startsPosted : List Event → ℕ
  | [] => 0
  | .posted _ (.start _) :: earlier => startsPosted earlier + 1
  | _ :: earlier => startsPosted earlier

theorem Serving.cons {time : ℕ} {ticks : UInt32} {history : List Event} {event : Event}
    (h : Serving time ticks history) (hevent : event.IsAside) :
    Serving time ticks (event :: history) := by
  obtain ⟨since, before, rfl, ⟨later, hlater⟩, haside⟩ := h
  refine ⟨event :: since, before, rfl, ⟨later, List.mem_cons_of_mem _ hlater⟩, ?_⟩
  intro other hother
  rcases List.mem_cons.1 hother with rfl | hother
  · exact hevent
  · exact haside other hother

theorem serving_taken (time later : ℕ) (ticks : UInt32) (history : List Event) :
    Serving time ticks (.polled later :: .taken time (.start ticks) :: history) :=
  ⟨[.polled later], history, rfl, ⟨later, by simp⟩, by simp [Event.IsAside]⟩

theorem eachServed_cons_iff (event : Event) (history : List Event) :
    EachServed (event :: history) ↔
      (∀ now, event = .expired now →
        ∃ time ticks, Serving time ticks history ∧ time + ticks.toNat ≤ now) ∧
        EachServed history :=
  forall_event_cons_iff event history

/-! ### The mailbox and the task -/

end Desk

/-- The number of starts that wait in a mailbox. -/
def Mailbox.starts : Mailbox → ℕ
  | ⟨some (.start _)⟩ => 1
  | _ => 0

/-- The number of starts that a task runs for. -/
def Task.starts : Task → ℕ
  | idle => 0
  | running _ => 1

namespace Desk

/-- A task that runs serves a start whose time is not over before its deadline, and this was so at
each expiry; a start was posted for each one that was taken or waits, and taken for each expiry and
for the deadline that the task waits for. -/
structure Tended (task : Task) (s : Desk) : Prop where
  serving : ∀ deadline, task = .running deadline →
    ∃ time ticks, Serving time ticks s.history ∧ time + ticks.toNat ≤ deadline
  served : EachServed s.history
  posted : startsTaken s.history + s.mailbox.starts ≤ startsPosted s.history
  taken : expiries s.history + task.starts ≤ startsTaken s.history

theorem Tended.post {task : Task} {s : Desk} (h : Tended task s) (order : Order) :
    Tended task (s.post order) where
  serving deadline hrunning := by
    obtain ⟨time, ticks, hserving, hle⟩ := h.serving deadline hrunning
    exact ⟨time, ticks, hserving.cons trivial, hle⟩
  served := (eachServed_cons_iff _ _).2 ⟨by rintro now ⟨⟩, h.served⟩
  posted := by
    have hposted := h.posted
    cases order with
    | start ticks =>
      show startsTaken s.history + 1 ≤ startsPosted s.history + 1
      omega
    | stop =>
      show startsTaken s.history + 0 ≤ startsPosted s.history
      omega
  taken := h.taken

/-- The orders of an expiry do not undo anything. -/
theorem foldl_post_induction {P : Desk → Prop} (h : ∀ order s, P s → P (s.post order))
    (orders : List Order) {s : Desk} (hs : P s) :
    P (orders.foldl (fun s order => s.post order) s) := by
  induction orders generalizing s with
  | nil => exact hs
  | cons order orders ih => exact ih (h order s hs)

/-- A task whose deadline has come serves a start, and its expiry is the one of that start. -/
theorem Tended.expire {s : Desk} (h : Tended s.task s) (hdue : s.task.isDue s.now = true)
    (orders : List Order) : Tended .idle (s.expire orders) := by
  refine foldl_post_induction (fun order _ h => h.post order) orders ?_
  cases htask : s.task with
  | idle =>
    rw [htask] at hdue
    cases hdue
  | running deadline =>
    rw [htask] at hdue h
    have hle : deadline ≤ s.now := of_decide_eq_true hdue
    obtain ⟨time, ticks, hserving, htime⟩ := h.serving deadline rfl
    refine ⟨by rintro deadline ⟨⟩, ?_, h.posted, h.taken⟩
    refine (eachServed_cons_iff _ _).2 ⟨?_, h.served⟩
    rintro now ⟨⟩
    exact ⟨time, ticks, hserving, Nat.le_trans htime hle⟩

/-- A look into the mailbox, with which the poll is over. -/
theorem Tended.look {task : Task} {s : Desk} (h : Tended task s) :
    Tended (task.next s.now s.mailbox) ((s.look s.now task).note .polled) := by
  obtain ⟨hserving, hserved, hposted, htaken⟩ := h
  cases hw : s.mailbox.waiting with
  | none =>
    rw [Task.next, hw, Desk.look, emptied_of_none hw]
    refine ⟨?_, (eachServed_cons_iff _ _).2 ⟨by rintro now ⟨⟩, hserved⟩, hposted, htaken⟩
    intro deadline hrunning
    obtain ⟨time, ticks, hs, hle⟩ := hserving deadline hrunning
    exact ⟨time, ticks, hs.cons trivial, hle⟩
  | some order =>
    have hmailbox : s.mailbox = ⟨some order⟩ := congrArg Mailbox.mk hw
    rw [hmailbox] at hposted
    rw [Task.next, hw, Desk.look, emptied_of_some hw]
    have hlaw : EachServed (.polled s.now :: .taken s.now order :: s.history) := by
      simp [eachServed_cons_iff, hserved]
    cases order with
    | stop =>
      refine ⟨by rintro deadline ⟨⟩, hlaw, ?_, ?_⟩
      · show startsTaken s.history + 0 ≤ startsPosted s.history
        omega
      · show expiries s.history + 0 ≤ startsTaken s.history
        omega
    | start ticks =>
      refine ⟨?_, hlaw, ?_, ?_⟩
      · rintro deadline ⟨⟩
        exact ⟨s.now, ticks, serving_taken .., Nat.le_refl _⟩
      · exact hposted
      · show expiries s.history + 1 ≤ startsTaken s.history + 1
        omega

theorem now_expire (orders : List Order) (s : Desk) : (s.expire orders).now = s.now :=
  foldl_post_induction (P := fun s' => s'.now = s.now) (fun _ _ h => h) orders rfl

theorem Tended.step {s : Desk} (h : Tended s.task s) (step : Step) :
    Tended (s.step step).task (s.step step) := by
  cases step with
  | post order => exact h.post order
  | advance micros => exact ⟨h.serving, h.served, h.posted, h.taken⟩
  | poll orders =>
    cases hdue : s.task.isDue s.now with
    | false =>
      rw [step_poll_of_not_due hdue]
      exact h.look
    | true =>
      rw [step_poll_of_due hdue, ← now_expire orders s]
      exact (h.expire hdue orders).look

theorem tended_after (steps : List Step) : Tended (after steps).task (after steps) := by
  induction steps using List.reverseRecOn with
  | nil =>
    refine ⟨by rintro deadline ⟨⟩, ?_, Nat.le_refl _, Nat.le_refl _⟩
    intro newer event earlier h
    simp [after] at h
  | append_singleton steps step ih =>
    rw [after_concat]
    exact ih.step step

/-- A poll expires once at most, and looks into the mailbox last of all. -/
theorem expiries_poll (s : Desk) (orders : List Order) :
    expiries (s.step (.poll orders)).history ≤ expiries s.history + 1 ∧
      (s.step (.poll orders)).mailbox.waiting = none := by
  have hlook (now : ℕ) (task : Task) (s : Desk) :
      expiries ((s.look now task).note .polled).history = expiries s.history ∧
        ((s.look now task).note .polled).mailbox.waiting = none := by
    refine ⟨?_, by simp [Desk.look, note]⟩
    cases hw : s.mailbox.waiting with
    | none =>
      rw [Desk.look, emptied_of_none hw]
      rfl
    | some order =>
      rw [Desk.look, emptied_of_some hw]
      rfl
  cases hdue : s.task.isDue s.now with
  | false =>
    rw [step_poll_of_not_due hdue, (hlook ..).1]
    exact ⟨Nat.le_succ _, (hlook ..).2⟩
  | true =>
    have hexpire : expiries (s.expire orders).history = expiries s.history + 1 :=
      foldl_post_induction (P := fun s' => expiries s'.history = expiries s.history + 1)
        (fun _ _ h => h) orders rfl
    rw [step_poll_of_due hdue, (hlook ..).1, hexpire]
    exact ⟨Nat.le_refl _, (hlook ..).2⟩

/-- **Each expiry belongs to a start of its own.**  Anybody may post orders at any time, and an
expiry as many as it likes.  A poll of the task is over after four turns of its loops, whatever an
expiry does.  It expires once at most, and leaves the mailbox empty.  Before each expiry, the order
that was taken last is a start; it was taken in an earlier poll, its time is over, and there was no
expiry for it yet.  So there are no more expiries than starts that were taken, and no more of those
than starts that were posted. -/
theorem expiries_served (steps : List Step) :
    let s := after steps
    (∀ (onExpiry : DeskM Unit) turns,
      (s.task.stage.run s.now onExpiry (turns + 4)).run.run s =
        (some <$> s.task.poll s.now onExpiry).run s) ∧
    (∀ orders,
      let s' := after (steps ++ [.poll orders])
      expiries s'.history ≤ expiries s.history + 1 ∧ s'.mailbox.waiting = none) ∧
    (∀ newer now earlier, s.history = newer ++ .expired now :: earlier →
      ∃ time ticks, Serving time ticks earlier ∧ time + ticks.toNat ≤ now) ∧
    expiries s.history ≤ startsTaken s.history ∧
    startsTaken s.history ≤ startsPosted s.history := by
  intro s
  have h : Tended s.task s := tended_after steps
  refine ⟨fun onExpiry turns => run_stage .., ?_, ?_, ?_, ?_⟩
  · intro orders
    rw [after_concat]
    exact expiries_poll s orders
  · intro newer now earlier hs
    exact h.served newer _ earlier hs now rfl
  · exact Nat.le_of_add_right_le h.taken
  · exact Nat.le_of_add_right_le h.posted

/-- A start of 5 microseconds, in whose expiry a start of none is posted, which expires as well. -/
def restarted : List Step := [.post (.start 5), .poll [], .advance 5, .poll [.start 0], .poll []]

/-- A start of no length is served in a later poll than the one that took it. -/
theorem expiries_served_restarted :
    (after restarted).history =
        [.polled 5, .expired 5, .polled 5, .taken 5 (.start 0), .posted 5 (.start 0), .expired 5,
          .polled 0, .taken 0 (.start 5), .posted 0 (.start 5)] ∧
      ∃ time ticks, Serving time ticks
          [.polled 5, .taken 5 (.start 0), .posted 5 (.start 0), .expired 5, .polled 0,
            .taken 0 (.start 5), .posted 0 (.start 5)] ∧ time + ticks.toNat ≤ 5 :=
  ⟨rfl, (expiries_served restarted).2.2.1 [.polled 5] 5 _ rfl⟩

end Desk

end ElementHost.Countdown
