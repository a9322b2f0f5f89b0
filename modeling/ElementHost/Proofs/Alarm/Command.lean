import ElementHost.Alarm.Basic

/-!
# What may be asked of an alarm

The calls by which an alarm is used, from outside and by its own jobs, as data.

* `Command`, `Reply` and `Command.perform`;
* `Command.request?`, the registration that a command asks for;
* `Keeper`, `Command.answer`, what the commands come to where none can fail, with
  `Keeper.Related` and `Keeper.Keeps`.

An expiry is not among them: it comes from the timer.
-/

namespace ElementHost.Alarm

/-- Something to ask of an alarm. -/
inductive Command (κ : Type)
  | create (job : Option κ)
  | start (job : κ)
  | stop
  | register (job : κ) (delayMicros : UInt32)
  | destroy
  deriving DecidableEq

/-- What an alarm answers. -/
inductive Reply
  | created (result : Except Error Unit)
  | started (result : Except Error (Option Arming))
  | registered (result : Except Error Arming)
  | nothing

/-- Whether an answer is free of errors. -/
def Reply.isOk : Reply → Bool
  | created result => result.isOk
  | started result => result.isOk
  | registered result => result.isOk
  | nothing => true

variable {κ η φ : Type} {m : Type → Type} [Monad m]

/-- Asks an alarm. -/
def Command.perform (timers : Timers m η φ) : Command κ → StateT (Alarm κ η) m Reply
  | create job => return .created (← Alarm.create timers job)
  | start job => return .started (← Alarm.start timers job)
  | stop => do
    Alarm.stop
    return .nothing
  | register job delayMicros => return .registered (← Alarm.register timers job delayMicros)
  | destroy => do
    Alarm.destroy timers
    return .nothing

/-- The job that a command registers if it succeeds, with its delay in microseconds. -/
def Command.request? (alarm : Alarm κ η) : Command κ → Option (κ × UInt32)
  | create job => if alarm.triggered then none else job.map (·, alarm.config.delayMicros)
  | start job => if alarm.triggered then none else some (job, alarm.config.delayMicros)
  | stop => none
  | register job delayMicros => some (job, delayMicros)
  | destroy => none

/-! ### Commands that cannot fail -/

/-- How the states `σ` of something keep a job and its timer. -/
structure Keeper (κ σ : Type) where
  config : σ → Config
  triggered : σ → Bool
  /-- What a registration is told about the job before it. -/
  arming : σ → Arming
  /-- Keeps a job, to be run after a delay in microseconds. -/
  arm : κ → UInt32 → σ → σ
  /-- Gives up the timer. -/
  clear : σ → σ
  /-- Counts as started or not. -/
  mark : Bool → σ → σ

variable {σ τ : Type}

/-- What a command comes to if nothing fails. -/
def Command.answer (k : Keeper κ σ) : Command κ → σ → Reply × σ
  | create none, s => (.created (.ok ()), s)
  | create (some job), s =>
    if k.triggered s then (.created (.ok ()), s)
    else (.created (.ok ()), k.mark true (k.arm job (k.config s).delayMicros s))
  | start job, s =>
    if k.triggered s then (.started (.ok none), s)
    else (.started (.ok (some (k.arming s))), k.mark true (k.arm job (k.config s).delayMicros s))
  | stop, s => (.nothing, k.mark false s)
  | register job delayMicros, s => (.registered (.ok (k.arming s)), k.arm job delayMicros s)
  | destroy, s => (.nothing, k.clear s)

/-- A relation between two kinds of keepers that are asked the same. -/
structure Keeper.Related (k : Keeper κ σ) (l : Keeper κ τ) (R : σ → τ → Prop) : Prop where
  config : ∀ s t, R s t → k.config s = l.config t
  triggered : ∀ s t, R s t → k.triggered s = l.triggered t
  arming : ∀ s t, R s t → k.arming s = l.arming t
  arm : ∀ job delayMicros s t, R s t → R (k.arm job delayMicros s) (l.arm job delayMicros t)
  clear : ∀ s t, R s t → R (k.clear s) (l.clear t)
  mark : ∀ b s t, R s t → R (k.mark b s) (l.mark b t)

/-- Related keepers give the same answers and stay related. -/
theorem Keeper.Related.answer {k : Keeper κ σ} {l : Keeper κ τ} {R : σ → τ → Prop}
    (h : k.Related l R) (c : Command κ) (s : σ) (t : τ) (hst : R s t) :
    (c.answer k s).1 = (c.answer l t).1 ∧ R (c.answer k s).2 (c.answer l t).2 := by
  have hstart (job : κ) : R (k.mark true (k.arm job (k.config s).delayMicros s))
      (l.mark true (l.arm job (l.config t).delayMicros t)) := by
    rw [h.config s t hst]
    exact h.mark _ _ _ (h.arm _ _ _ _ hst)
  cases c with
  | create job =>
    cases job with
    | none => exact ⟨rfl, hst⟩
    | some job =>
      rw [Command.answer, Command.answer, h.triggered s t hst]
      split
      · exact ⟨rfl, hst⟩
      · exact ⟨rfl, hstart job⟩
  | start job =>
    rw [Command.answer, Command.answer, h.triggered s t hst, h.arming s t hst]
    split
    · exact ⟨rfl, hst⟩
    · exact ⟨rfl, hstart job⟩
  | stop => exact ⟨rfl, h.mark _ _ _ hst⟩
  | register job delayMicros =>
    rw [Command.answer, Command.answer, h.arming s t hst]
    exact ⟨rfl, h.arm _ _ _ _ hst⟩
  | destroy => exact ⟨rfl, h.clear _ _ hst⟩

/-- A property that arming, clearing and marking keep. -/
structure Keeper.Keeps (k : Keeper κ σ) (P : σ → Prop) : Prop where
  arm : ∀ job delayMicros s, P s → P (k.arm job delayMicros s)
  clear : ∀ s, P s → P (k.clear s)
  mark : ∀ b s, P s → P (k.mark b s)

/-- What arming, clearing and marking keep, every command keeps. -/
theorem Keeper.Keeps.answer {k : Keeper κ σ} {P : σ → Prop} (h : k.Keeps P) (c : Command κ)
    (s : σ) (hs : P s) : P (c.answer k s).2 := by
  have hr : k.Related k fun s t => s = t ∧ P s := by
    constructor
    case config | triggered | arming =>
      rintro s _ ⟨rfl, -⟩
      rfl
    case arm =>
      rintro job delayMicros s _ ⟨rfl, hs⟩
      exact ⟨rfl, h.arm _ _ _ hs⟩
    case clear =>
      rintro s _ ⟨rfl, hs⟩
      exact ⟨rfl, h.clear _ hs⟩
    case mark =>
      rintro b s _ ⟨rfl, hs⟩
      exact ⟨rfl, h.mark _ _ hs⟩
  exact (hr.answer c s s ⟨rfl, hs⟩).2.2

end ElementHost.Alarm
