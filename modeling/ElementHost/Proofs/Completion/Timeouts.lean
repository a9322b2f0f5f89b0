import ElementHost.Proofs.Completion.Agreement
import Mathlib.Logic.Function.Iterate

/-!
# Giving up

A wait with a timeout polls the completion and reads the clock in turn.  It may give up after any
reading but the first, and it does not poll once more before it does.  While the clock is read,
statuses may be published and anything else may happen.

* `Activity.uptime`, a clock, and `Activity.tick`, what becomes of a completion and of the world
  while it is read;
* `Ends`, what a wait may end with, given what its last poll found, with `ends_waitFrom`;
* `timedOut_unresolved`, a wait gives up only if its last poll found no result;
* `not_timesOutUnresolved_late`, a result that comes after the last poll.
-/

namespace ElementHost.Request

variable {σ : Type}

namespace Activity

variable (clock : Activity σ UInt32)

/-- A clock.  Anything may be done while it is read. -/
def uptime : Uptime (StateT Completion (StateM σ)) := ⟨clock.perform⟩

/-- The statuses that are published while the clock is read. -/
def published (s : Completion × σ) : List Status := (clock.play s.1.result s.2).published

/-- The completion and the world after a reading. -/
def tick (s : Completion × σ) : Completion × σ :=
  (s.1.offer (clock.published s), (clock.play s.1.result s.2).world)

theorem run_millis (c : Completion) (world : σ) :
    (clock.uptime.millis.run c).run world =
      (((clock.play c.result world).reply, (clock.tick (c, world)).1),
        (clock.tick (c, world)).2) :=
  clock.run_perform c world

/-- If there was no result before a reading, one that is there after it has come meanwhile. -/
theorem result_tick {s : Completion × σ} (h : s.1.result = none) :
    (clock.tick s).1.result = Completion.firstFinal (clock.published s) := by
  rw [tick, Completion.result_offer, h, Option.none_or]

/-- A result stays, however often the clock is read. -/
theorem result_iterate_tick {s : Completion × σ} {status : Status}
    (h : s.1.result = some status) (readings : ℕ) :
    (clock.tick^[readings] s).1.result = some status := by
  induction readings with
  | zero => exact h
  | succ readings ih =>
    rw [Function.iterate_succ_apply', tick, Completion.result_offer, ih, Option.some_or]

end Activity

/-- What a wait may end with whose last poll found `s`: the result that is there, or a timeout and
one more reading of the clock. -/
inductive Ends (clock : Activity σ UInt32) (s : Completion × σ) :
    Except Completion.TimedOut Status → Completion × σ → Prop
  | found {status : Status} (h : s.1.result = some status) : Ends clock s (.ok status) s
  | gaveUp (h : s.1.result = none) : Ends clock s (.error .timedOut) (clock.tick s)

theorem Ends.cases {clock : Activity σ UInt32} {s : Completion × σ}
    {outcome : Except Completion.TimedOut Status} {c' : Completion} {world' : σ}
    (h : Ends clock s outcome (c', world')) :
    (∃ status, outcome = .ok status ∧ s.1.result = some status ∧ (c', world') = s) ∨
      outcome = .error .timedOut ∧ s.1.result = none ∧ (c', world') = clock.tick s ∧
        c'.result = Completion.firstFinal (clock.published s) := by
  cases h with
  | found h => exact .inl ⟨_, rfl, h, rfl⟩
  | gaveUp h => exact .inr ⟨rfl, h, rfl, clock.result_tick h⟩

/-- A result that is there by the last poll is what the wait ends with. -/
theorem Ends.delivered {clock : Activity σ UInt32} {s s' : Completion × σ} {readings i : ℕ}
    {outcome : Except Completion.TimedOut Status} {status : Status}
    (h : Ends clock (clock.tick^[readings] s) outcome s') (hi : i ≤ readings)
    (hresult : (clock.tick^[i] s).1.result = some status) : outcome = .ok status := by
  have hlast : (clock.tick^[readings] s).1.result = some status := by
    obtain ⟨more, rfl⟩ := Nat.exists_eq_add_of_le' hi
    rw [Function.iterate_add_apply]
    exact clock.result_iterate_tick hresult more
  cases h with
  | found hfound => rw [Option.some.inj (hfound.symm.trans hlast)]
  | gaveUp hnone =>
    rw [hnone] at hlast
    cases hlast

section Waits

variable {clock : Activity σ UInt32} {start timeout : UInt32} {bound : ℕ} {c c' : Completion}
  {world world' : σ} {outcome : Except Completion.TimedOut Status}

/-- One turn of a wait whose poll finds no result. -/
theorem run_waitFrom_succ (h : c.result = none) :
    ((Completion.waitFrom clock.uptime start timeout (bound + 1)).run.run c).run world =
      let s := clock.tick (c, world)
      if timeout ≤ (clock.play c.result world).reply - start then
        ((some (.error .timedOut), s.1), s.2)
      else ((Completion.waitFrom clock.uptime start timeout bound).run.run s.1).run s.2 := by
  rw [Completion.run_waitFrom_of_busy h, StateT.run_bind, clock.run_millis c world]
  show (if _ then _ else _ : StateM σ _).run _ = _
  split <;> rfl

/-- Whatever a wait ends with, a last poll has decided it. -/
theorem ends_waitFrom
    (h : ((Completion.waitFrom clock.uptime start timeout bound).run.run c).run world =
      ((some outcome, c'), world')) :
    ∃ readings, Ends clock (clock.tick^[readings] (c, world)) outcome (c', world') := by
  induction bound generalizing c world with
  | zero => cases h
  | succ bound ih =>
    cases hresult : c.result with
    | some status =>
      rw [Completion.run_waitFrom_of_result hresult] at h
      cases h
      exact ⟨0, .found hresult⟩
    | none =>
      rw [run_waitFrom_succ hresult] at h
      split at h
      · cases h
        exact ⟨0, .gaveUp hresult⟩
      · obtain ⟨readings, hends⟩ := ih h
        exact ⟨readings + 1, hends⟩

theorem run_waitUntil :
    ((Completion.waitUntil clock.uptime timeout bound).run.run c).run world =
      let s := clock.tick (c, world)
      ((Completion.waitFrom clock.uptime (clock.play c.result world).reply timeout bound).run.run
        s.1).run s.2 := by
  have hlift : ((OptionT.lift clock.uptime.millis).run.run c).run world =
      ((some (clock.play c.result world).reply, (clock.tick (c, world)).1),
        (clock.tick (c, world)).2) :=
    run_bind_of_run (clock.run_millis c world) fun now => pure (some now)
  exact run_bind_of_some hlift _

/-- The first reading comes before the first poll. -/
theorem ends_waitUntil
    (h : ((Completion.waitUntil clock.uptime timeout bound).run.run c).run world =
      ((some outcome, c'), world')) :
    ∃ readings, 1 ≤ readings ∧
      Ends clock (clock.tick^[readings] (c, world)) outcome (c', world') := by
  rw [run_waitUntil] at h
  obtain ⟨readings, hends⟩ := ends_waitFrom h
  exact ⟨readings + 1, Nat.le_add_left .., hends⟩

theorem run_bind_of_none {α β : Type} {f : OptionT (StateT Completion (StateM σ)) α}
    (h : (f.run.run c).run world = ((none, c'), world'))
    (g : α → OptionT (StateT Completion (StateM σ)) β) :
    ((f >>= g).run.run c).run world = ((none, c'), world') := by
  rw [OptionT.run_bind, Option.elimM, run_bind_of_run h]
  rfl

/-- A request with a timeout is turned down at once, or it comes to what its wait comes to. -/
theorem runUntil_eq_some {issue : Activity σ (Except Status Unit)} {result : Except Error Unit}
    (h : ((runUntil clock.uptime timeout bound issue.perform).run.run c).run world =
      ((some result, c'), world')) :
    let issued := issue.play none world
    (∃ code, issued.reply = .error code ∧ result = .error (.rejected code)) ∨
      issued.reply = .ok () ∧ ∃ outcome,
        ((Completion.waitUntil clock.uptime timeout bound).run.run
          (c.arm.offer issued.published)).run issued.world = ((some outcome, c'), world') ∧
        result = match outcome with
          | .error .timedOut => .error .timedOut
          | .ok status => verdict status := by
  intro issued
  have hissue : (issue.perform.run c.arm).run world =
      ((issued.reply, c.arm.offer issued.published), issued.world) :=
    issue.run_perform c.arm world
  cases hreply : issued.reply with
  | error code =>
    rw [hreply] at hissue
    rw [runUntil_of_rejected hissue] at h
    cases h
    exact .inl ⟨code, rfl, rfl⟩
  | ok =>
    rw [hreply] at hissue
    refine .inr ⟨rfl, ?_⟩
    rw [runUntil, run_some_issued hissue] at h
    rcases hwait : ((Completion.waitUntil clock.uptime timeout bound).run.run
        (c.arm.offer issued.published)).run issued.world with ⟨⟨_ | outcome, c₁⟩, world₁⟩
    · rw [run_bind_of_none hwait] at h
      cases h
    · rw [run_bind_of_some hwait] at h
      cases outcome <;> cases h <;> exact ⟨_, rfl, rfl⟩

end Waits

/-- **A wait gives up on nothing but an operation in flight.**  Let a clock show anything, and let
anything be published and done while it is read.  Every wait with a timeout that ends at all has
polled the completion a last time, and what this poll found has decided: a result is what the wait
ends with, and if there was none, the wait gives up after one more reading.  The completion has no
result then, unless a final status was published during this very reading; every result that came
before it is delivered.  The same goes for every request with a timeout whose operation was not
turned down. -/
theorem timedOut_unresolved (clock : Activity σ UInt32) (timeout : UInt32) (bound : ℕ) :
    (∀ c world outcome c' world',
      ((Completion.waitUntil clock.uptime timeout bound).run.run c).run world =
        ((some outcome, c'), world') →
      let after readings := clock.tick^[readings] (c, world)
      ∃ readings, 1 ≤ readings ∧
        (∀ i ≤ readings, ∀ status, (after i).1.result = some status → outcome = .ok status) ∧
        let last := after readings
        (∃ status, outcome = .ok status ∧ last.1.result = some status ∧ (c', world') = last) ∨
        outcome = .error .timedOut ∧ last.1.result = none ∧ (c', world') = clock.tick last ∧
          c'.result = Completion.firstFinal (clock.published last)) ∧
    ∀ (issue : Activity σ (Except Status Unit)) c world result c' world',
      ((runUntil clock.uptime timeout bound issue.perform).run.run c).run world =
        ((some result, c'), world') →
      let issued := issue.play none world
      (∃ code, issued.reply = .error code ∧ result = .error (.rejected code)) ∨
      issued.reply = .ok () ∧
        let after readings := clock.tick^[readings] (c.arm.offer issued.published, issued.world)
        ∃ readings, 1 ≤ readings ∧
          (∀ i ≤ readings, ∀ status, (after i).1.result = some status →
            result = verdict status) ∧
          let last := after readings
          (∃ status, result = verdict status ∧ last.1.result = some status ∧
            (c', world') = last) ∨
          result = .error .timedOut ∧ last.1.result = none ∧ (c', world') = clock.tick last ∧
            c'.result = Completion.firstFinal (clock.published last) := by
  constructor
  · intro c world outcome c' world' h
    obtain ⟨readings, hreadings, hends⟩ := ends_waitUntil h
    refine ⟨readings, hreadings, fun i hi status => hends.delivered hi, ?_⟩
    rcases hends.cases with ⟨status, rfl, hfound⟩ | ⟨rfl, hgaveUp⟩
    · exact .inl ⟨status, rfl, hfound⟩
    · exact .inr ⟨rfl, hgaveUp⟩
  · intro issue c world result c' world' h
    rcases runUntil_eq_some h with hrejected | ⟨hissued, outcome, hwait, rfl⟩
    · exact .inl hrejected
    · obtain ⟨readings, hreadings, hends⟩ := ends_waitUntil hwait
      refine .inr ⟨hissued, readings, hreadings, ?_, ?_⟩
      · intro i hi status hresult
        rw [hends.delivered hi hresult]
      · rcases hends.cases with ⟨status, rfl, hfound⟩ | ⟨rfl, hgaveUp⟩
        · exact .inl ⟨status, rfl, hfound⟩
        · exact .inr ⟨rfl, hgaveUp⟩

/-- A clock that counts its readings.  While it is read for the second time, a success comes. -/
def lateResult : Activity ℕ UInt32 :=
  .act (· + 1) fun readings =>
    if readings = 0 then .done 0 else .publish Status.success fun _ => .done 1

theorem run_lateResult :
    ((Completion.waitUntil lateResult.uptime 1 1).run.run (Completion.arm {})).run 0 =
      ((some (.error .timedOut), { signal := .raised }), 2) := by
  rfl

/-- The success that came during the last reading is there when the wait gives up. -/
theorem timedOut_unresolved_late :
    ∃ readings, 1 ≤ readings ∧
      let last := lateResult.tick^[readings] (Completion.arm {}, 0)
      last.1.result = none ∧
        Completion.firstFinal (lateResult.published last) = some Status.success := by
  obtain ⟨readings, hreadings, -, hends⟩ :=
    (timedOut_unresolved lateResult 1 1).1 _ _ _ _ _ run_lateResult
  refine ⟨readings, hreadings, ?_⟩
  rcases hends with ⟨status, houtcome, -⟩ | ⟨-, hnone, -, hlate⟩
  · cases houtcome
  · exact ⟨hnone, hlate.symm⟩

/-- Whoever is told that the time is over finds the operation still in flight. -/
def TimesOutUnresolved : Prop :=
  ∀ (clock : Activity ℕ UInt32) (timeout : UInt32) (bound : ℕ) (c c' : Completion)
    (world world' : ℕ),
    (((Completion.waitUntil clock.uptime timeout bound).run.run c).run world =
        ((some (.error .timedOut), c'), world') → c'.result = none) ∧
      ∀ issue : Activity ℕ (Except Status Unit),
        ((runUntil clock.uptime timeout bound issue.perform).run.run c).run world =
          ((some (.error .timedOut), c'), world') → c'.result = none

/-- A wait gives up although a success has come since its last poll. -/
theorem not_timesOutUnresolved_late : ¬ TimesOutUnresolved := by
  intro h
  have hnone := (h lateResult 1 1 _ _ 0 2).1 run_lateResult
  exact absurd hnone (by decide)

end ElementHost.Request
