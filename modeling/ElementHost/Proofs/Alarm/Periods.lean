import ElementHost.Proofs.Alarm.Facility
import ElementHost.Proofs.Alarm.Ticks

/-!
# The period of a timer

A registration asks the facility for its rate, and turns its delay into ticks of that rate.  The
timer is then started for this number of ticks; if there is no timer yet, it is created with the
same number.

* `Action.ticks?`, the ticks that the facility is handed, and `Handed`, all that is done with them;
* `Operation.request?`, the registration that an operation asks for, with
  `Operation.Effect.registers` and `Operation.Effect.ticks?_eq_none`, what the operation does if
  there is one and if there is none;
* `periods_exact`, the ticks of every delay, and what the facility is handed in any course.
-/

namespace ElementHost.Alarm

variable {κ η φ : Type}

/-- The ticks that an action hands to the facility. -/
def Action.ticks? : Action κ η φ → Option UInt32
  | create _ ticks _ => some ticks
  | start _ ticks _ => some ticks
  | _ => none

/-- All that can be done with a number of ticks: a timer is created if there is none, and the timer
is started if there is one then. -/
inductive Handed (alarm : Alarm κ η) (ticks : UInt32) : List (Action κ η φ) → Prop
  | uncreated (reason : φ) : alarm.timer = none →
      Handed alarm ticks [.create alarm.config.timerName ticks (.error reason)]
  | created (handle : η) (result : Except φ Unit) : alarm.timer = none →
      Handed alarm ticks
        [.create alarm.config.timerName ticks (.ok handle), .start handle ticks result]
  | kept {handle : η} (result : Except φ Unit) : alarm.timer = some handle →
      Handed alarm ticks [.start handle ticks result]

theorem Obtains.handed {alarm after : Alarm κ η} {ticks : UInt32} {actions : List (Action κ η φ)}
    {handle : η} (h : Obtains alarm ticks actions handle after) (result : Except φ Unit) :
    Handed alarm ticks (actions ++ [.start handle ticks result]) := by
  cases h with
  | kept htimer => exact .kept result htimer
  | created htimer => exact .created handle result htimer

/-- A registration hands over the ticks of its delay, at the rate it was told. -/
theorem Registers.handed {alarm after : Alarm κ η} {job : κ} {delayMicros : UInt32}
    {actions : List (Action κ η φ)} {result : Except Error Arming}
    (h : Registers alarm job delayMicros actions result after) :
    ∃ hertz more, actions = .rate hertz :: more ∧
      Handed alarm (ticksOfMicros delayMicros hertz) more := by
  cases h with
  | uncreated hertz reason htimer => exact ⟨hertz, _, rfl, .uncreated reason htimer⟩
  | unstarted reason hobtains => exact ⟨_, _, rfl, hobtains.handed (.error reason)⟩
  | started hobtains => exact ⟨_, _, rfl, hobtains.handed (.ok ())⟩

/-- The registration that an operation asks for: its job, with its delay in microseconds. -/
def Operation.request? (alarm : Alarm κ η) : Operation κ → Option (κ × UInt32)
  | ask c => c.request? alarm
  | _ => none

section Effect

variable {alarm after : Alarm κ η} {operation : Operation κ} {actions : List (Action κ η φ)}
  {answer : Answer κ} (h : operation.Effect alarm actions answer after)

include h

/-- An operation that asks for a registration does what that does. -/
theorem Operation.Effect.registers {job : κ} {delayMicros : UInt32}
    (hasked : operation.request? alarm = some (job, delayMicros)) :
    ∃ result after', Registers alarm job delayMicros actions result after' := by
  cases h with
  | asked heffect =>
    cases heffect with
    | registered hrequest hregisters | failed hrequest hregisters =>
      obtain ⟨rfl, rfl⟩ := Prod.mk.inj (Option.some.inj (hrequest.symm.trans hasked))
      exact ⟨_, _, hregisters⟩
    | declined hrequest => cases hrequest.symm.trans hasked
    | stopped | absent | destroyed | undestroyed => cases hasked
  | expired | settled | triggered => cases hasked

/-- Any other operation hands over no ticks. -/
theorem Operation.Effect.ticks?_eq_none (hnone : operation.request? alarm = none) :
    ∀ action ∈ actions, action.ticks? = none := by
  cases h with
  | asked heffect =>
    cases heffect with
    | registered hrequest | failed hrequest => cases hrequest.symm.trans hnone
    | declined | stopped | absent => exact nofun
    | destroyed | undestroyed => simp [Action.ticks?]
  | expired | settled => exact nofun
  | triggered => simp [Action.ticks?]

end Effect

/-- **The period of a timer is the delay in whole ticks.**  The product of a delay in microseconds
and a rate fits into 64 bits.  The ticks made of it are at least one and fit into 32 bits; within
these bounds they are the whole ticks in the delay, and they fall short of it by less than one tick
unless they are cut at the upper end, which takes a timer that ticks more than once in a
microsecond.  A longer delay or a faster timer never makes for fewer of them.  After any course, a
registration asks for the rate of the facility once, and hands the ticks made of its delay and this
rate to every creation and every start of the timer that it then asks for.  No other operation hands
over any ticks. -/
theorem periods_exact (b : Behaviour κ η φ) (config : Config) (operations : List (Operation κ))
    (operation : Operation κ) :
    let s := course b config operations
    let s' := course b config (operations ++ [operation])
    (∀ micros rate, Converts micros rate (ticksOfMicros micros rate)) ∧
    (∀ micros micros' rate rate', micros ≤ micros' → rate ≤ rate' →
      ticksOfMicros micros rate ≤ ticksOfMicros micros' rate') ∧
    ∃ actions, s'.actions = s.actions ++ actions ∧
      (∀ job delayMicros, operation.request? s.alarm = some (job, delayMicros) →
        ∃ more, actions = .rate (b.rate s.actions) :: more ∧
          Handed s.alarm (ticksOfMicros delayMicros (b.rate s.actions)) more) ∧
      (operation.request? s.alarm = none → ∀ action ∈ actions, action.ticks? = none) := by
  intro s s'
  obtain ⟨actions, answer, after, hstep, heffect, hanswered⟩ :=
    Course.exists_answered_step b (Course.answered b config operations) operation
  have hs' : s' = s.record operation actions answer after := (course_concat ..).trans hstep
  refine ⟨converts_ticksOfMicros, ?_, actions, ?_, ?_, heffect.ticks?_eq_none⟩
  · intro micros micros' rate rate' hmicros hrate
    exact ticksOfMicros_le_ticksOfMicros hmicros hrate
  · rw [hs', record_actions]
  · intro job delayMicros hasked
    obtain ⟨result, after', hregisters⟩ := heffect.registers hasked
    obtain ⟨hertz, more, rfl, hhanded⟩ := hregisters.handed
    have hrate : b.rate s.actions = hertz := hanswered s.actions (.rate hertz) more rfl
    exact ⟨more, by rw [hrate], by rwa [hrate]⟩

/-- Almost three milliseconds are two ticks of a millisecond each, also after the first creation of
the timer has failed; and a delay may be too long for a timer that ticks twice in a microsecond. -/
theorem periods_exact_failingOnce :
    let b := (failingOnce 1 : Facility Nat Nat Unit).toBehaviour
    let s := course b {} [.ask (.register 1 50)]
    let registered := course b {} [.ask (.register 1 50), .ask (.register 2 2999)]
    let stopped := course b {} [.ask (.register 1 50), .ask .stop]
    (s.alarm.timer = none ∧
      ∃ more, registered.actions = s.actions ++ .rate 1000 :: more ∧ Handed s.alarm 2 more) ∧
    (∃ more, stopped.actions = s.actions ++ more ∧ ∀ action ∈ more, action.ticks? = none) ∧
    (ticksOfMicros 2999 1000).toNat = 2 ∧ ticksOfMicros 50 1000 ≤ ticksOfMicros 2999 1000 ∧
    (ticksOfMicros 4294967295 2000000).toNat = 2 ^ 32 - 1 := by
  intro b s registered stopped
  obtain ⟨hconverts, hmono, actions, hactions, hasked, -⟩ :=
    periods_exact b {} [.ask (.register 1 50)] (.ask (.register 2 2999))
  obtain ⟨more, rfl, hhanded⟩ := hasked 2 2999 rfl
  obtain ⟨-, -, unmarked, hunmarked, -, hother⟩ :=
    periods_exact b {} [.ask (.register 1 50)] (.ask .stop)
  have hrate : b.rate s.actions = 1000 := rfl
  have hticks : ticksOfMicros 2999 1000 = 2 := by decide
  have hsaturates : Saturates 4294967295 2000000 := by
    unfold Saturates
    decide
  rw [hrate] at hactions hhanded
  rw [hticks] at hhanded
  exact ⟨⟨rfl, more, hactions, hhanded⟩, ⟨unmarked, hunmarked, hother rfl⟩,
    (hconverts 2999 1000).whole (by decide) (by decide),
    hmono 50 2999 1000 1000 (by decide) (by decide),
    ((hconverts 4294967295 2000000).saturated hsaturates).1⟩

end ElementHost.Alarm
