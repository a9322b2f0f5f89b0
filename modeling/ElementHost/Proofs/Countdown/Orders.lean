import ElementHost.Proofs.Countdown.Scene
import ElementHost.Proofs.Moments
import ElementHost.Proofs.Script

/-!
# Which order an expiry belongs to

The facility of the single timer and its task, on their own: calls of the facility, the clock and
polls of the task come in any order, and an expiry may make calls as well.

The task should expire only when the order posted last is a start and the time of that start is
over (`Punctual`).  It does not always: in a poll that finds its deadline come, the task does not
look at an order that waits, be it a stop or a later start.  `punctual_iff` says that this is the
only way in which the law is broken.

* `Call`, `Step`, `Facility.after`, the facility after a list of steps;
* `Facility.exec_call`, everything a call can do;
* `Facility.Orderly`, which mailbox and task keep with the history;
* `Punctual`, `Facility.Overtaken`, `punctual_iff`.
-/

namespace ElementHost.Countdown

/-- Something to do with the facility. -/
inductive Call
  | create (name : String) (ticks : UInt32)
  | start (ticks : UInt32)
  | stop
  | delete
  deriving DecidableEq

/-- The order that a call posts if it is accepted. -/
def Call.order? : Call → Option Order
  | .create _ _ => none
  | .start ticks => some (.start ticks)
  | .stop => some .stop
  | .delete => some .stop

/-- What happens between the facility and its task. -/
inductive Event
  | ordered (time : Nat) (order : Order)
  | expired (time : Nat)
  deriving DecidableEq

/-- The facility, its mailbox and their surroundings. -/
structure Facility extends Scene Event where
  service : Service := {}
  mailbox : Mailbox := {}

/-- What a call does. -/
def Call.act : Call → ServiceM Event (Except Refusal Unit)
  | .create name ticks => timers.create name ticks
  | .start ticks => timers.start () ticks
  | .stop => timers.stop ()
  | .delete => timers.delete ()

/-- Makes a call and writes down the order that it posts. -/
def Call.perform (call : Call) : ServiceM Event (Except Refusal Unit) := do
  let result ← call.act
  if result.isOk then
    if let some order := call.order? then
      liftM (Scene.note (Event.ordered · order))
  return result

/-- What an expiry does: it is written down, and then a script makes calls. -/
def expiry (script : Script Call (Except Refusal Unit)) : ServiceM Event Unit := do
  liftM (Scene.note Event.expired)
  script.run Call.perform

/-- Something that happens to the facility. -/
inductive Step
  | call (call : Call)
  | advance (micros : Nat)
  /-- One poll of the task, with what an expiry does. -/
  | poll (script : Script Call (Except Refusal Unit))

/-- Performs a step. -/
def Step.perform : Step → ServiceM Event Unit
  | .call c => discard c.perform
  | .advance micros => liftM (Scene.advance (ε := Event) micros)
  | .poll script => Scene.poll Event (expiry script)

namespace Facility

/-- Runs a computation on the facility. -/
def exec {α : Type} (f : ServiceM Event α) (s : Facility) : α × Facility :=
  let (((a, service), mailbox), scene) := ((f.run s.service).run s.mailbox).run s.toScene
  (a, { scene with service, mailbox })

/-- The facility after some steps, from the beginning. -/
def after (steps : List Step) : Facility := steps.foldl (fun s step => (exec step.perform s).2) {}

theorem after_concat (steps : List Step) (step : Step) :
    after (steps ++ [step]) = (exec step.perform (after steps)).2 := by
  simp [after]

theorem exec_bind {α β : Type} (f : ServiceM Event α) (g : α → ServiceM Event β) (s : Facility) :
    exec (f >>= g) s = exec (g (exec f s).1) (exec f s).2 := rfl

/-- A call posts no order, or its order replaces the one that waits. -/
theorem exec_call (c : Call) (s : Facility) :
    ∃ service, (exec c.perform s).2 = { s with service } ∨
      ∃ order, (exec c.perform s).2 =
        { s with
          service
          mailbox := ⟨some order⟩
          history := .ordered s.now order :: s.history } := by
  obtain ⟨scene, ⟨created⟩, mailbox⟩ := s
  -- orders are posted while the timer exists, and creating it posts none
  cases c <;> cases created
  case start.true | stop.true | delete.true => exact ⟨_, .inr ⟨_, rfl⟩⟩
  all_goals exact ⟨_, .inl rfl⟩

theorem now_call (c : Call) (s : Facility) : (exec c.perform s).2.now = s.now := by
  obtain ⟨service, hs | ⟨order, hs⟩⟩ := exec_call c s <;> rw [hs]

theorem exec_script (script : Script Call (Except Refusal Unit)) (s : Facility) :
    (exec (script.run Call.perform) s).2 = script.final (fun c => exec c.perform) s := by
  induction script generalizing s with
  | done => rfl
  | ask c next ih =>
    rw [Script.run, exec_bind, ih]
    rfl

theorem exec_obeyNext (now : Nat) (task : Task) (s : Facility) :
    exec (task.obeyNext now) s = (task.next now s.mailbox, { s with mailbox := {} }) := by
  obtain ⟨scene, service, ⟨waiting⟩⟩ := s
  cases waiting <;> rfl

theorem exec_poll_of_due {s : Facility} (h : s.task.isDue s.now = true)
    (onExpiry : ServiceM Event Unit) :
    (exec (Scene.poll Event onExpiry) s).2 =
      let s' := (exec onExpiry s).2
      { s' with mailbox := {}, task := Task.idle.next s.now s'.mailbox } := by
  show (exec (s.task.poll s.now onExpiry >>= fun task =>
    liftM (Scene.resume (ε := Event) task)) s).2 = _
  rw [Task.poll_of_due h, bind_assoc, exec_bind, exec_bind, exec_obeyNext]
  rfl

theorem exec_poll_of_not_due {s : Facility} (h : s.task.isDue s.now = false)
    (onExpiry : ServiceM Event Unit) :
    (exec (Scene.poll Event onExpiry) s).2 =
      { s with mailbox := {}, task := s.task.next s.now s.mailbox } := by
  show (exec (s.task.poll s.now onExpiry >>= fun task =>
    liftM (Scene.resume (ε := Event) task)) s).2 = _
  rw [Task.poll_of_not_due h, exec_bind, exec_obeyNext]
  rfl

end Facility

/-! ### Histories -/

/-- The order that was posted last, and when. -/
def lastOrder : List Event → Option (Nat × Order)
  | [] => none
  | .ordered time order :: _ => some (time, order)
  | .expired _ :: earlier => lastOrder earlier

/-- The order posted last is a start whose time is over. -/
def RanOut (now : Nat) (history : List Event) : Prop :=
  ∃ time ticks, lastOrder history = some (time, .start ticks) ∧ time + ticks.toNat ≤ now

/-- At each expiry, the order posted last is a start whose time is over. -/
def Punctual (history : List Event) : Prop :=
  ∀ newer event earlier, history = newer ++ event :: earlier →
    ∀ now, event = .expired now → RanOut now earlier

theorem punctual_ordered_iff (time : Nat) (order : Order) (history : List Event) :
    Punctual (.ordered time order :: history) ↔ Punctual history := by
  refine (forall_event_cons_iff _ history).trans (and_iff_right ?_)
  rintro now ⟨⟩

theorem punctual_expired_iff (now : Nat) (history : List Event) :
    Punctual (.expired now :: history) ↔ RanOut now history ∧ Punctual history := by
  refine (forall_event_cons_iff _ history).trans (and_congr_left' ?_)
  exact ⟨fun h => h now rfl, by rintro h _ ⟨⟩; exact h⟩

namespace Facility

theorem punctual_call (c : Call) (s : Facility) :
    Punctual (exec c.perform s).2.history ↔ Punctual s.history := by
  obtain ⟨service, hs | ⟨order, hs⟩⟩ := exec_call c s
  · rw [hs]
  · rw [hs]
    exact punctual_ordered_iff _ _ _

/-! ### The mailbox and the task -/

/-- An order that waits in the mailbox is the one posted last. -/
structure Posted (s : Facility) : Prop where
  past : ∀ time order, lastOrder s.history = some (time, order) → time ≤ s.now
  waiting : ∀ order, s.mailbox.waiting = some order →
    ∃ time, lastOrder s.history = some (time, order)

/-- A task runs for a start with this order posted last, and not for too short. -/
def RunsLast (s : Facility) (task : Task) : Prop :=
  ∀ deadline, task = .running deadline → s.mailbox.waiting = none →
    ∃ time ticks, lastOrder s.history = some (time, .start ticks) ∧ time + ticks.toNat ≤ deadline

/-- The mailbox and the task agree with the history. -/
structure Orderly (s : Facility) : Prop extends Posted s where
  running : s.RunsLast s.task

theorem Posted.call {s : Facility} (h : Posted s) (c : Call) : Posted (exec c.perform s).2 := by
  obtain ⟨service, hs | ⟨order, hs⟩⟩ := exec_call c s
  · rw [hs]
    exact ⟨h.past, h.waiting⟩
  · rw [hs]
    constructor
    · rintro time order ⟨⟩
      exact Nat.le_refl _
    · rintro order ⟨⟩
      exact ⟨s.now, rfl⟩

/-- A look into the mailbox: a start that waits there runs from now on, which is no earlier than
from the moment it was posted. -/
theorem Posted.look {s : Facility} (h : Posted s) {task : Task} (hr : s.RunsLast task) :
    Orderly { s with mailbox := {}, task := task.next s.now s.mailbox } := by
  refine ⟨⟨h.past, by rintro order ⟨⟩⟩, ?_⟩
  intro deadline htask _
  cases hw : s.mailbox.waiting with
  | none =>
    simp only [Task.next, hw] at htask
    exact hr deadline htask hw
  | some order =>
    simp only [Task.next, hw] at htask
    cases order with
    | stop => cases htask
    | start ticks =>
      cases htask
      obtain ⟨time, hlast⟩ := h.waiting _ hw
      exact ⟨time, ticks, hlast, Nat.add_le_add_right (h.past _ _ hlast) _⟩

/-- An expiry changes nothing but the orders behind it. -/
theorem Posted.expiry {s : Facility} (h : Posted s)
    (script : Script Call (Except Refusal Unit)) :
    Posted (exec (expiry script) s).2 ∧ (exec (expiry script) s).2.now = s.now ∧
      (Punctual (exec (expiry script) s).2.history ↔
        Punctual (.expired s.now :: s.history)) := by
  let s₀ : Facility := { s with history := .expired s.now :: s.history }
  let P (s' : Facility) : Prop :=
    Posted s' ∧ s'.now = s.now ∧ (Punctual s'.history ↔ Punctual s₀.history)
  have hcall (c : Call) (s' : Facility) : P s' → P (exec c.perform s').2 := by
    rintro ⟨hposted, hnow, hlaw⟩
    exact ⟨hposted.call c, (now_call c s').trans hnow, (punctual_call c s').trans hlaw⟩
  show P (exec (script.run Call.perform) s₀).2
  rw [exec_script]
  exact Script.final_induction hcall script ⟨⟨h.past, h.waiting⟩, rfl, Iff.rfl⟩

theorem Orderly.step {s : Facility} (h : Orderly s) (step : Step) :
    Orderly (exec step.perform s).2 := by
  cases step with
  | call c =>
    show Orderly (exec c.perform s).2
    refine ⟨h.toPosted.call c, ?_⟩
    obtain ⟨service, hs | ⟨order, hs⟩⟩ := exec_call c s
    · rw [hs]
      exact h.running
    · rw [hs]
      rintro deadline _ ⟨⟩
  | advance micros =>
    exact ⟨⟨fun time order hlast => Nat.le_add_right_of_le (h.past time order hlast), h.waiting⟩,
      h.running⟩
  | poll script =>
    show Orderly (exec (Scene.poll Event (Countdown.expiry script)) s).2
    cases hdue : s.task.isDue s.now with
    | false =>
      rw [exec_poll_of_not_due hdue]
      exact h.toPosted.look h.running
    | true =>
      -- the task comes out of an expiry idle, whatever it waited for
      obtain ⟨hposted, hnow, -⟩ := h.toPosted.expiry script
      rw [exec_poll_of_due hdue, ← hnow]
      exact hposted.look (by rintro deadline ⟨⟩)

theorem orderly_after (steps : List Step) : Orderly (after steps) := by
  induction steps using List.reverseRecOn with
  | nil => exact ⟨⟨by rintro _ _ ⟨⟩, by rintro _ ⟨⟩⟩, by rintro _ ⟨⟩⟩
  | append_singleton steps step ih =>
    rw [after_concat]
    exact ih.step step

/-! ### The law -/

/-- The deadline of the task has come, but an order that the task has not seen waits in the
mailbox: a stop, or a start that is not over. -/
def Overtaken (s : Facility) : Prop :=
  s.task.isDue s.now = true ∧ ∃ time order, s.mailbox.waiting = some order ∧
    lastOrder s.history = some (time, order) ∧
      ∀ ticks, order = .start ticks → s.now < time + ticks.toNat

/-- A deadline that has come is the end of the order posted last exactly if no order has overtaken
it. -/
theorem Orderly.ranOut_iff {s : Facility} (h : Orderly s) (hdue : s.task.isDue s.now = true) :
    RanOut s.now s.history ↔ ¬ s.Overtaken := by
  cases hw : s.mailbox.waiting with
  | none =>
    have hnot : ¬ s.Overtaken := by
      rintro ⟨-, _, _, hsome, -⟩
      rw [hw] at hsome
      cases hsome
    refine iff_of_true ?_ hnot
    cases htask : s.task with
    | idle =>
      rw [htask] at hdue
      cases hdue
    | running deadline =>
      obtain ⟨time, ticks, hlast, hle⟩ := h.running deadline htask hw
      rw [htask] at hdue
      exact ⟨time, ticks, hlast, Nat.le_trans hle (of_decide_eq_true hdue)⟩
  | some order =>
    obtain ⟨time, hlast⟩ := h.waiting order hw
    constructor
    · rintro ⟨time', ticks, hlast', hle⟩ ⟨-, _, _, -, hlast'', hlate⟩
      rw [hlast'] at hlast''
      cases hlast''
      exact absurd hle (Nat.not_le_of_lt (hlate ticks rfl))
    · intro hnot
      by_contra hno
      refine hnot ⟨hdue, time, order, hw, hlast, ?_⟩
      rintro ticks rfl
      exact Nat.lt_of_not_le fun hle => hno ⟨time, ticks, hlast, hle⟩

/-- A step keeps the law unless it is a poll of a task that was overtaken. -/
theorem Orderly.punctual_step_iff {s : Facility} (h : Orderly s) (step : Step) :
    Punctual (exec step.perform s).2.history ↔
      Punctual s.history ∧ ∀ script, step = .poll script → ¬ s.Overtaken := by
  cases step with
  | call c =>
    show Punctual (exec c.perform s).2.history ↔ _
    simp [punctual_call]
  | advance micros =>
    show Punctual s.history ↔ _
    simp
  | poll script =>
    show Punctual (exec (Scene.poll Event (Countdown.expiry script)) s).2.history ↔ _
    cases hdue : s.task.isDue s.now with
    | false =>
      have hnot : ¬ s.Overtaken := fun ho => by simp [ho.1] at hdue
      rw [exec_poll_of_not_due hdue]
      simp [hnot]
    | true =>
      obtain ⟨-, -, hlaw⟩ := h.toPosted.expiry script
      rw [exec_poll_of_due hdue]
      show Punctual (exec (Countdown.expiry script) s).2.history ↔ _
      rw [hlaw, punctual_expired_iff, h.ranOut_iff hdue]
      simp [and_comm]

/-- **When expiries are punctual.**  In a run of any calls, clock advances and polls, the order
posted last is at every expiry a start whose time is over, if and only if no poll of the run finds
the task overtaken. -/
theorem punctual_iff (steps : List Step) :
    Punctual (after steps).history ↔
      ∀ earlier step later, steps = earlier ++ step :: later →
        ∀ script, step = .poll script → ¬ (after earlier).Overtaken := by
  induction steps using List.reverseRecOn with
  | nil => simp [after, Punctual]
  | append_singleton steps step ih =>
    rw [after_concat, (orderly_after steps).punctual_step_iff, ih,
      forall_moment_concat_iff (P := fun earlier step =>
        ∀ script, step = .poll script → ¬ (after earlier).Overtaken)]

/-- A start of a millisecond that the task has taken, a stop at once, and no poll for two
milliseconds. -/
def stoppedUnseen : List Step :=
  [.call (.create "trustlink_event" 1000), .call (.start 1000), .poll .done, .call .stop,
    .advance 2000, .poll .done]

/-- A timer that was stopped long before its deadline may expire. -/
theorem not_punctual_stoppedUnseen : ¬ Punctual (after stoppedUnseen).history := by
  intro h
  obtain ⟨time, ticks, hlast, -⟩ :=
    h [] (.expired 2000) [.ordered 0 .stop, .ordered 0 (.start 1000)] rfl 2000 rfl
  cases hlast

end Facility

end ElementHost.Countdown
