import ElementHost.Countdown.Task

/-!
# Scenes around a timer and its task

A scene is what surrounds the mailbox of a timer: the clock, the task that serves the timer, and
the history of what happened, the latest first.

* `Scene`, `Scene.note`, `Scene.advance` and `Scene.poll`, one poll of the task;
* `Task.next`, what the task waits for after it has looked into the mailbox;
* `Task.poll_of_due`, `Task.poll_of_not_due`, the two kinds of polls.
-/

namespace ElementHost

namespace Countdown

/-- What the task waits for after a look into the mailbox. -/
def Task.next (now : Nat) (task : Task) (mailbox : Mailbox) : Task :=
  match mailbox.waiting with
  | none => task
  | some order => obey now order

/-- The surroundings of a timer, with a history of events `ε`. -/
structure Scene (ε : Type) where
  /-- The clock, in microseconds. -/
  now : Nat := 0
  task : Task := .idle
  /-- What happened, the latest first. -/
  history : List ε := []

/-- Computations in a scene. -/
abbrev SceneM (ε : Type) := StateM (Scene ε)

/-- Computations with the facility of the timer, in a scene. -/
abbrev ServiceM (ε : Type) := StateT Service (StateT Mailbox (SceneM ε))

namespace Scene

variable {ε : Type}

/-- Writes down what happens now. -/
def note (event : Nat → ε) : SceneM ε Unit :=
  modify fun scene => { scene with history := event scene.now :: scene.history }

/-- Moves the clock. -/
def advance (micros : Nat) : SceneM ε Unit :=
  modify fun scene => { scene with now := scene.now + micros }

/-- Lets the task wait for something else. -/
def resume (task : Task) : SceneM ε Unit := modify fun scene => { scene with task }

/-- Polls the task once. -/
def poll (ε : Type) {n : Type → Type} [Monad n] [MonadLiftT (SceneM ε) n]
    [MonadStateOf Mailbox n] (onExpiry : n Unit) : n Unit := do
  let scene ← liftM (get : SceneM ε (Scene ε))
  let task ← scene.task.poll scene.now onExpiry
  liftM (resume task : SceneM ε Unit)

end Scene

namespace Task

variable {n : Type → Type} [Monad n] [MonadStateOf Mailbox n] {now : Nat} {task : Task}

/-- A task whose deadline has come runs the expiry and then takes the next order. -/
theorem poll_of_due (h : task.isDue now = true) (onExpiry : n Unit) :
    task.poll now onExpiry = (do onExpiry; idle.obeyNext now) := by
  simp [poll, h]

/-- Any other task only takes the next order. -/
theorem poll_of_not_due (h : task.isDue now = false) (onExpiry : n Unit) :
    task.poll now onExpiry = task.obeyNext now := by
  simp [poll, h]

end Task

end Countdown

end ElementHost
