import ElementHost.Proofs.Completion.Room

/-!
# One future at a time, and several

The signal of a completion is raised once for each result, and the first suspended future that is
polled takes it.  A future that is alone therefore always finds what the completion says; of several
futures, one does.

* `Alone`, a run in which no two futures exist at a time, and `poll_agrees`: such a future agrees
  with the completion, and is woken when there is a result;
* `Taken`, a run in which the signal of the present result has been taken, `signal_eq_raised_iff`,
  and `ready_unless_taken`: only a future that comes too late for the signal misses a result;
* `not_served_twoWaiters`, a run with such a future.
-/

namespace ElementHost.Completion

/-! ### One future at a time -/

/-- The waker is left with the signal as long as there is no result, and has been woken since if
there is one. -/
def Watched (waker : Waker) (woken : List Waker) (c : Completion) : Prop :=
  c.result = none ∧ c.signal = .awaited waker ∧ c.woken = woken ∨
    c.result ≠ none ∧ c.woken = waker :: woken

theorem Watched.exec {waker : Waker} {woken : List Waker} {c : Completion}
    (h : c.Watched waker woken) {call : Call} (hcall : call ≠ .arm) :
    (call.exec c).2.Watched waker woken := by
  rcases Call.exec_of_ne_arm hcall c with hsame | ⟨hnone, status, hfinal, hraise⟩
  · rwa [hsame]
  · rcases h with ⟨-, hsignal, hwoken⟩ | ⟨hr, -⟩
    · rw [hraise]
      refine .inr ⟨result_raise_ne_none hfinal, ?_⟩
      rw [raise, hsignal, hwoken]
      rfl
    · exact absurd hnone hr

namespace Room

/-- No two futures exist. -/
def Solitary (s : Room) : Prop :=
  ∀ name other, s.futures name ≠ none → s.futures other ≠ none → other = name

/-- No two futures exist at any time of a run. -/
def Alone (steps : List Step) : Prop :=
  ∀ earlier later, steps = earlier ++ later → (run earlier).Solitary

/-- A run about one future is a run in which it is alone. -/
theorem alone_of_name {steps : List Step} (name : Nat)
    (h : ∀ step ∈ steps, ∀ other, step.name? = some other → other = name) : Alone steps := by
  rintro earlier later rfl
  have hothers : ∀ other, (run earlier).futures other ≠ none → other = name := by
    intro other hother
    by_contra hne
    have hnever : (run ([] ++ earlier)).futures other = (run []).futures other :=
      futures_run_append fun step hstep hname => hne (h step (by simp [hstep]) other hname)
    exact hother hnever
  intro first second hfirst hsecond
  rw [hothers first hfirst, hothers second hsecond]

namespace Alone

variable {steps : List Step}

theorem solitary (h : Alone steps) : (run steps).Solitary := h steps [] (by simp)

theorem of_append {earlier later : List Step} (h : Alone (earlier ++ later)) : Alone earlier := by
  rintro first second rfl
  exact h first (second ++ later) (by simp)

/-- A future that was suspended before there was a result finds the signal raised. -/
theorem raised (h : Alone steps) {name : Nat} (hf : (run steps).futures name = some .suspended)
    (hr : (run steps).completion.result ≠ none) : (run steps).completion.signal = .raised := by
  induction steps using List.reverseRecOn with
  | nil => cases hf
  | append_singleton steps step ih =>
    have hs := h.of_append
    have hc := coherent_run steps
    rw [run_concat] at hf hr ⊢
    rcases suspended_step hf with ⟨hname, hbefore⟩ | ⟨waker, future, rfl, hbefore, hpending⟩
    · cases step with
      | call call =>
        by_cases hcall : call = .arm
        · subst hcall
          exact absurd rfl hr
        · rcases Call.exec_of_ne_arm hcall (run steps).completion with hsame | ⟨-, _, -, hraise⟩
          · simp only [Room.step, hsame] at hr ⊢
            exact ih hs hbefore hr
          · simp only [Room.step, hraise]
            rfl
      | enter other => exact ih hs hbefore hr
      | leave other => exact ih hs hbefore hr
      | poll other waker =>
        cases hother : (run steps).futures other with
        | none =>
          rw [step_poll_of_none hother] at hr ⊢
          exact ih hs hbefore hr
        | some future =>
          refine absurd (congrArg some ?_) hname
          exact hs.solitary name other (by simp [hbefore]) (by simp [hother])
    · -- who was suspended already has found the signal raised, so it would be done now
      rw [result_step hc (by simp)] at hr
      rcases (hc.poll_pending_iff ..).1 hpending with hnone | ⟨rfl, hquiet⟩
      · exact absurd hnone hr
      · exact absurd (ih hs hbefore hr) hquiet

/-- A future that is alone is not suspended before a raised signal is due to it. -/
theorem fresh_or_raised (h : Alone steps) {name : Nat} {future : Wait}
    (hf : (run steps).futures name = some future) (hr : (run steps).completion.result ≠ none) :
    future = .fresh ∨ (run steps).completion.signal = .raised := by
  cases future with
  | fresh => exact .inl rfl
  | suspended => exact .inr (h.raised hf hr)

/-- A future that is alone and still there after a poll has left its waker with the signal. -/
theorem watched_poll {name : Nat} {waker : Waker} (h : Alone steps)
    (hf : ((run steps).step (.poll name waker)).futures name ≠ none) :
    ((run steps).step (.poll name waker)).completion.Watched waker
      ((run steps).step (.poll name waker)).completion.woken := by
  have hc := coherent_run steps
  cases hs : (run steps).futures name with
  | none =>
    rw [step_poll_of_none hs] at hf
    exact absurd hs hf
  | some future =>
    cases hr : (run steps).completion.result with
    | none =>
      rw [step_poll_of_some hs, hc.poll_of_busy hr]
      exact .inl ⟨hr, rfl, rfl⟩
    | some status =>
      -- a future that is answered is done
      have hdone := h.fresh_or_raised hs (by simp [hr])
      rw [futures_step_poll hs, (hc.poll_ready_iff future waker status).2 ⟨hr, hdone⟩] at hf
      exact absurd rfl hf

/-- Until the completion is armed or the future is polled again, its waker stays with the signal,
and is woken by the result. -/
theorem watched_append {more : List Step} {name : Nat} {waker : Waker} {woken : List Waker}
    (h : Alone (steps ++ more)) (harm : .call .arm ∉ more)
    (hname : ∀ step ∈ more, step.name? ≠ some name) (hf : (run steps).futures name ≠ none)
    (hw : (run steps).completion.Watched waker woken) :
    (run (steps ++ more)).completion.Watched waker woken := by
  induction more using List.reverseRecOn with
  | nil => rwa [List.append_nil]
  | append_singleton more step ih =>
    rw [← List.append_assoc] at h
    have hbefore := h.of_append
    have hstays : ∀ other ∈ more, other.name? ≠ some name :=
      fun other hother => hname other (by simp [hother])
    have hnow := ih hbefore (fun hmem => harm (by simp [hmem])) hstays
    rw [← List.append_assoc, run_concat]
    cases step with
    | call call =>
      refine hnow.exec ?_
      rintro rfl
      simp at harm
    | enter other => exact hnow
    | leave other => exact hnow
    | poll other another =>
      cases hother : (run (steps ++ more)).futures other with
      | none => rwa [step_poll_of_none hother]
      | some future =>
        have hpresent : (run (steps ++ more)).futures name ≠ none := by
          rwa [futures_run_append hstays]
        have hsame : other = name := hbefore.solitary name other hpresent (by simp [hother])
        exact absurd (congrArg some hsame) (hname (.poll other another) (by simp))

end Alone

/-- **A future that is alone agrees with the completion.**  If no two futures exist at any time of a
run, then a future that is polled, be it fresh or suspended, is ready with a status exactly if this
is the result of the completion, and suspended exactly if there is no result; it looks at the status
no more than once for that.  If there is a result and the completion was not armed since the future
was polled last, then the waker of that poll has been woken since, and only it, and only once. -/
theorem poll_agrees {steps : List Step} (h : Alone steps) {name : Nat} {future : Wait}
    (hf : (run steps).futures name = some future) :
    (∀ waker status, (future.poll waker (run steps).completion).1 = .ready status ↔
        (run steps).completion.result = some status) ∧
      (∀ waker, (future.poll waker (run steps).completion).1 = .pending .suspended ↔
        (run steps).completion.result = none) ∧
      (∀ waker, future.pollWithin waker 1 (run steps).completion =
        some (future.poll waker (run steps).completion)) ∧
      ∀ before waker since, steps = before ++ [.poll name waker] ++ since →
        .call .arm ∉ since → (∀ step ∈ since, step.name? ≠ some name) →
        (run steps).completion.result ≠ none →
          (run steps).completion.woken =
            waker :: (run (before ++ [.poll name waker])).completion.woken := by
  have hc := coherent_run steps
  refine ⟨?_, ?_, hc.pollWithin_one future, ?_⟩
  · intro waker status
    rw [hc.poll_ready_iff]
    exact and_iff_left_of_imp fun hr => h.fresh_or_raised hf (by simp [hr])
  · intro waker
    rw [hc.poll_pending_iff]
    refine or_iff_left_of_imp ?_
    rintro ⟨rfl, hquiet⟩
    by_contra hr
    exact hquiet (h.raised hf hr)
  · rintro before waker since rfl harm hname hr
    have hpresent : (run (before ++ [.poll name waker])).futures name ≠ none := by
      rw [← futures_run_append hname, hf]
      simp
    have hpolled : (run (before ++ [.poll name waker])).completion.Watched waker
        (run (before ++ [.poll name waker])).completion.woken := by
      rw [run_concat] at hpresent ⊢
      exact h.of_append.of_append.watched_poll hpresent
    rcases h.watched_append harm hname hpresent hpolled with ⟨hnone, -⟩ | ⟨-, hwoken⟩
    · exact absurd hnone hr
    · exact hwoken

/-- The future that waits for an operation is woken by its result and finds it. -/
theorem poll_agrees_woken :
    let steps : List Step := [.call .arm, .enter 0, .poll 0 3, .call (.publish 7)]
    Alone steps ∧ (run steps).futures 0 = some .suspended ∧
      (Wait.suspended.poll 3 (run steps).completion).1 = .ready 7 ∧
      (run steps).completion.woken = [3] := by
  have halone : Alone [.call .arm, .enter 0, .poll 0 3, .call (.publish 7)] :=
    alone_of_name 0 (by simp [Step.name?])
  have hf : (run [.call .arm, .enter 0, .poll 0 3, .call (.publish 7)]).futures 0 =
      some .suspended := by decide +kernel
  obtain ⟨hready, -, -, hwoken⟩ := poll_agrees halone hf
  refine ⟨halone, hf, (hready 3 7).2 (by decide +kernel), ?_⟩
  refine (hwoken [.call .arm, .enter 0] 3 [.call (.publish 7)] rfl ?_ ?_ ?_).trans ?_
  · simp
  · simp [Step.name?]
  · decide +kernel
  · decide +kernel

/-! ### Several futures at a time -/

/-- A suspended future was polled when there was a result already, and the completion was not armed
since. -/
def Taken (steps : List Step) : Prop :=
  ∃ earlier name waker later, steps = earlier ++ .poll name waker :: later ∧
    (run earlier).futures name = some .suspended ∧ (run earlier).completion.result ≠ none ∧
    .call .arm ∉ later

theorem taken_concat_iff (steps : List Step) (step : Step) :
    Taken (steps ++ [step]) ↔ step ≠ .call .arm ∧
      (Taken steps ∨ ∃ name waker, step = .poll name waker ∧
        (run steps).futures name = some .suspended ∧ (run steps).completion.result ≠ none) := by
  constructor
  · rintro ⟨earlier, name, waker, later, h, hf, hr, harm⟩
    rcases (concat_eq_split_iff ..).1 h with ⟨-, rfl, rfl⟩ | ⟨between, rfl, rfl⟩
    · exact ⟨by simp, .inr ⟨name, waker, rfl, hf, hr⟩⟩
    · simp only [List.mem_append, List.mem_singleton, not_or] at harm
      exact ⟨Ne.symm harm.2, .inl ⟨earlier, name, waker, between, rfl, hf, hr, harm.1⟩⟩
  · rintro ⟨hstep, ⟨earlier, name, waker, later, rfl, hf, hr, harm⟩ | ⟨name, waker, rfl, hf, hr⟩⟩
    · refine ⟨earlier, name, waker, later ++ [step], by simp, hf, hr, ?_⟩
      simpa using ⟨harm, Ne.symm hstep⟩
    · exact ⟨steps, name, waker, [], rfl, hf, hr, by simp⟩

/-- A result stays until the completion is armed. -/
theorem result_step_ne_none {s : Room} (hc : s.completion.Coherent) {step : Step}
    (hstep : step ≠ .call .arm) (hr : s.completion.result ≠ none) :
    (s.step step).completion.result ≠ none := by
  cases step with
  | call call =>
    have hcall : call ≠ .arm := fun he => hstep (congrArg Step.call he)
    rcases Call.exec_of_ne_arm hcall s.completion with hsame | ⟨hnone, -⟩
    · simpa only [Room.step, hsame] using hr
    · exact absurd hnone hr
  | enter name => exact hr
  | poll name waker => rwa [result_step hc (by simp)]
  | leave name => exact hr

theorem Taken.result_ne_none {steps : List Step} (h : Taken steps) :
    (run steps).completion.result ≠ none := by
  induction steps using List.reverseRecOn with
  | nil =>
    obtain ⟨earlier, name, waker, later, hs, -⟩ := h
    simp at hs
  | append_singleton steps step ih =>
    rw [run_concat]
    obtain ⟨hstep, htaken | ⟨-, -, -, -, hr⟩⟩ := (taken_concat_iff ..).1 h
    · exact result_step_ne_none (coherent_run steps) hstep (ih htaken)
    · exact result_step_ne_none (coherent_run steps) hstep hr

/-- Only an arming puts an operation in flight. -/
theorem armed_of_busy {steps : List Step} (h : (run steps).completion.result = none) :
    .call .arm ∈ steps := by
  induction steps using List.reverseRecOn with
  | nil => cases h
  | append_singleton steps step ih =>
    by_cases hstep : step = .call .arm
    · simp [hstep]
    · rw [run_concat] at h
      refine List.mem_append_left _ (ih ?_)
      by_contra hr
      exact result_step_ne_none (coherent_run steps) hstep hr h

/-- Only an operation in flight suspends a future. -/
theorem armed_of_suspended {steps : List Step} {name : Nat}
    (h : (run steps).futures name = some .suspended) : .call .arm ∈ steps := by
  induction steps using List.reverseRecOn with
  | nil => cases h
  | append_singleton steps step ih =>
    rw [run_concat] at h
    refine List.mem_append_left _ ?_
    rcases suspended_step h with ⟨-, hbefore⟩ | ⟨waker, future, -, hbefore, hpending⟩
    · exact ih hbefore
    · rcases ((coherent_run steps).poll_pending_iff ..).1 hpending with hbusy | ⟨rfl, -⟩
      · exact armed_of_busy hbusy
      · exact ih hbefore

/-- The signal of a result is raised until a suspended future takes it. -/
theorem signal_eq_raised_iff (steps : List Step) :
    (run steps).completion.signal = .raised ↔
      .call .arm ∈ steps ∧ (run steps).completion.result ≠ none ∧ ¬ Taken steps := by
  induction steps using List.reverseRecOn with
  | nil =>
    constructor
    · rintro ⟨⟩
    · rintro ⟨⟨⟩, -⟩
  | append_singleton steps step ih =>
    have hc := coherent_run steps
    rw [run_concat, taken_concat_iff, List.mem_append, List.mem_singleton]
    cases step with
    | call call =>
      by_cases hcall : call = .arm
      · subst hcall
        constructor
        · rintro ⟨⟩
        · rintro ⟨-, hr, -⟩
          exact absurd rfl hr
      · have hne : Step.call .arm ≠ .call call := fun he => hcall (Step.call.inj he).symm
        rcases Call.exec_of_ne_arm hcall (run steps).completion with
          hsame | ⟨hnone, status, hfinal, hraise⟩
        · simp [Room.step, hsame, hcall, hne, ih]
        · have hfree : ¬ Taken steps := fun htaken => htaken.result_ne_none hnone
          simp only [Room.step, hraise]
          simp [result_raise_ne_none hfinal, armed_of_busy hnone, hfree]
    | enter name => simpa [Room.step] using ih
    | leave name => simpa [Room.step] using ih
    | poll name waker =>
      cases hf : (run steps).futures name with
      | none =>
        rw [step_poll_of_none hf]
        simpa [hf] using ih
      | some future =>
        rw [step_poll_of_some hf]
        cases hr : (run steps).completion.result with
        | none => simp [hc.poll_of_busy hr, hr]
        | some status =>
          cases future with
          | fresh => simpa [Wait.poll, await_of_result hr, hf, hr] using ih
          | suspended =>
            by_cases hs : (run steps).completion.signal = .raised
            · simp [poll_suspended_of_raised hr hs, hf, hr]
            · simp [poll_suspended_of_not_raised hs, hf]

/-- **Of several futures, one takes the signal of a result.**  In any run, a future that is polled
while there is a result is ready with it, unless it was suspended and another suspended future was
polled before, since the result is there; then, and only then, it is left suspended. -/
theorem ready_unless_taken (steps : List Step) {name : Nat} {future : Wait} {status : Status}
    (hf : (run steps).futures name = some future)
    (hr : (run steps).completion.result = some status) (waker : Waker) :
    ((future.poll waker (run steps).completion).1 = .ready status ↔
        ¬ (future = .suspended ∧ Taken steps)) ∧
      ((future.poll waker (run steps).completion).1 = .pending .suspended ↔
        future = .suspended ∧ Taken steps) := by
  have hc := coherent_run steps
  rw [hc.poll_ready_iff, hc.poll_pending_iff]
  cases future with
  | fresh => simp [hr]
  | suspended =>
    have hraised : (run steps).completion.signal = .raised ↔ ¬ Taken steps := by
      rw [signal_eq_raised_iff]
      simp [armed_of_suspended hf, hr]
    simp [hr, hraised]

/-- Two futures wait for one operation, and the first takes the signal of its result. -/
def twoWaiters : List Step :=
  [.call .arm, .enter 0, .enter 1, .poll 0 0, .poll 1 1, .call (.publish 7), .poll 0 0]

theorem taken_twoWaiters : Taken twoWaiters := by
  refine ⟨twoWaiters.dropLast, 0, 0, [], rfl, ?_, ?_, by simp⟩
  · decide +kernel
  · decide +kernel

theorem ready_unless_taken_twoWaiters :
    (run twoWaiters).futures 1 = some .suspended ∧ (run twoWaiters).completion.result = some 7 ∧
      (Wait.suspended.poll 1 (run twoWaiters).completion).1 = .pending .suspended := by
  have hf : (run twoWaiters).futures 1 = some .suspended := by decide +kernel
  have hr : (run twoWaiters).completion.result = some 7 := by decide +kernel
  exact ⟨hf, hr, (ready_unless_taken twoWaiters hf hr 1).2.2 ⟨rfl, taken_twoWaiters⟩⟩

/-- Every future that is polled while there is a result is ready with it. -/
def Served (steps : List Step) : Prop :=
  ∀ earlier name waker later, steps = earlier ++ .poll name waker :: later →
    ∀ future status, (run earlier).futures name = some future →
      (run earlier).completion.result = some status →
        (future.poll waker (run earlier).completion).1 = .ready status

/-- The second of two futures is left waiting for a result that is there. -/
theorem not_served_twoWaiters : ¬ Served (twoWaiters ++ [.poll 1 1]) := by
  intro h
  have hready := h twoWaiters 1 1 [] rfl .suspended 7 (by decide +kernel) (by decide +kernel)
  exact absurd hready (by decide +kernel)

end Room

end ElementHost.Completion
