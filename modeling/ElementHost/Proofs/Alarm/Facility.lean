import ElementHost.Proofs.Alarm.SingleTimer

/-!
# Facilities that know which timers are live

A timer is live from its creation until it is deleted.  A facility that keeps track of its timers
lets nothing succeed on a timer that is not live.  Apart from that every call may fail at any time,
and a handle may be given again once its timer has been deleted.

* `Live`, and `Facility`, a behaviour that respects it;
* `Facility.Recovered`, from some moment on nothing fails without need;
* `Answered`, every answer in a record is the facility's own, with `answered_perform`;
* `answered_induction`, what is proved of a course may use that its answers are the facility's;
* `numbered`, a facility that numbers its timers and fails when it is told to, and `failingOnce`.
-/

namespace ElementHost.Alarm

variable {κ η φ : Type}

/-! ### Live timers -/

/-- The handle of the timer that was stopped. -/
def Action.stopped? : Action κ η φ → Option η
  | stop handle (.ok _) => some handle
  | _ => none

/-- The handle of the timer that was deleted. -/
def Action.deleted? : Action κ η φ → Option η
  | delete handle (.ok _) => some handle
  | _ => none

/-- A timer with this handle was created and has not been deleted since. -/
def Live (done : List (Action κ η φ)) (handle : η) : Prop :=
  Since (·.created? = some handle) (·.deleted? ≠ some handle) done

instance [DecidableEq η] (done : List (Action κ η φ)) : DecidablePred (Live done) :=
  fun handle => inferInstanceAs
    (Decidable (Since (·.created? = some handle) (·.deleted? ≠ some handle) done))

theorem live_concat_iff (done : List (Action κ η φ)) (action : Action κ η φ) (handle : η) :
    Live (done ++ [action]) handle ↔
      action.created? = some handle ∨ Live done handle ∧ action.deleted? ≠ some handle :=
  since_concat_iff ..

/-- Only creations and deletions matter. -/
theorem live_append_iff_of_forall {more : List (Action κ η φ)}
    (h : ∀ action ∈ more, action.created? = none ∧ action.deleted? = none)
    (done : List (Action κ η φ)) (handle : η) : Live (done ++ more) handle ↔ Live done handle := by
  refine since_append_iff_of_forall ?_ done
  intro action haction
  obtain ⟨hcreated, hdeleted⟩ := h action haction
  simp [hcreated, hdeleted]

/-- A timer facility on which nothing succeeds with a timer that is not live. -/
structure Facility (κ η φ : Type) extends Behaviour κ η φ where
  live_of_start : ∀ done handle ticks, start done handle ticks = .ok () → Live done handle
  live_of_stop : ∀ done handle, stop done handle = .ok () → Live done handle
  live_of_delete : ∀ done handle, delete done handle = .ok () → Live done handle

/-- After `done`, whatever is done besides, the facility creates timers and does what it is asked
with those that are live. -/
structure Facility.Recovered (f : Facility κ η φ) (done : List (Action κ η φ)) : Prop where
  create : ∀ more name ticks, ∃ handle, f.create (done ++ more) name ticks = .ok handle
  start : ∀ more handle ticks, Live (done ++ more) handle →
    f.start (done ++ more) handle ticks = .ok ()
  stop : ∀ more handle, Live (done ++ more) handle → f.stop (done ++ more) handle = .ok ()
  delete : ∀ more handle, Live (done ++ more) handle → f.delete (done ++ more) handle = .ok ()

/-! ### Answers -/

/-- The answer in the record of an action is the one that the facility gives after `done`. -/
def Action.AnsweredBy (b : Behaviour κ η φ) (done : List (Action κ η φ)) : Action κ η φ → Prop
  | rate hertz => b.rate done = hertz
  | create name ticks answer => b.create done name ticks = answer
  | start handle ticks answer => b.start done handle ticks = answer
  | stop handle answer => b.stop done handle = answer
  | delete handle answer => b.delete done handle = answer
  | run _ => True

/-- Every answer in a record is the facility's own. -/
def Answered (b : Behaviour κ η φ) (done : List (Action κ η φ)) : Prop :=
  ∀ earlier action later, done = earlier ++ action :: later → action.AnsweredBy b earlier

variable {b : Behaviour κ η φ}

theorem answered_nil : Answered b [] := by
  rintro earlier action later h
  simp at h

theorem answered_concat_iff (done : List (Action κ η φ)) (action : Action κ η φ) :
    Answered b (done ++ [action]) ↔ Answered b done ∧ action.AnsweredBy b done :=
  forall_moment_concat_iff ..

/-- What the facility answers to a destruction. -/
theorem Answered.destroy {done : List (Action κ η φ)} {handle : η} {stopped deleted : Except φ Unit}
    (h : Answered b (done ++ [.stop handle stopped, .delete handle deleted])) :
    b.stop done handle = stopped ∧ b.delete (done ++ [.stop handle stopped]) handle = deleted := by
  have hstop := h done (.stop handle stopped) [.delete handle deleted] rfl
  have hdelete := h (done ++ [.stop handle stopped]) (.delete handle deleted) [] (by simp)
  exact ⟨hstop, hdelete⟩

/-- A computation with an alarm that records nothing but answers of the facility. -/
def Attests (b : Behaviour κ η φ) {α : Type} (x : StateT (Alarm κ η) (RecordM κ η φ) α) : Prop :=
  ∀ alarm done, Answered b done → Answered b ((x.run alarm).run done).2

namespace Attests

variable {α β : Type}

/-- What only reads or changes the alarm. -/
theorem modifyGet (f : Alarm κ η → α × Alarm κ η) :
    Attests b (modifyGet f : StateT (Alarm κ η) (RecordM κ η φ) α) :=
  fun _ _ h => h

theorem pure (a : α) : Attests b (pure a : StateT (Alarm κ η) (RecordM κ η φ) α) :=
  fun _ _ h => h

theorem get : Attests b (get : StateT (Alarm κ η) (RecordM κ η φ) (Alarm κ η)) :=
  fun _ _ h => h

theorem bind {x : StateT (Alarm κ η) (RecordM κ η φ) α}
    {g : α → StateT (Alarm κ η) (RecordM κ η φ) β} (hx : Attests b x) (hg : ∀ a, Attests b (g a)) :
    Attests b (x >>= g) :=
  fun alarm done h => hg _ _ _ (hx alarm done h)

theorem act {answer : List (Action κ η φ) → α} {action : α → Action κ η φ}
    (h : ∀ done, (action (answer done)).AnsweredBy b done) :
    Attests b (liftM (act answer action) : StateT (Alarm κ η) (RecordM κ η φ) α) :=
  fun _ done hdone => (answered_concat_iff ..).2 ⟨hdone, h done⟩

theorem obtainTimer (ticks : UInt32) :
    Attests b (obtainTimer b.timers ticks : StateT (Alarm κ η) _ _) := by
  refine bind get fun alarm => ?_
  cases alarm.timer with
  | some handle => exact pure _
  | none =>
    refine bind (act fun _ => rfl) ?_
    rintro (reason | handle)
    · exact pure _
    · exact bind (modifyGet _) fun _ => pure _

theorem register (job : κ) (delayMicros : UInt32) :
    Attests b (register b.timers job delayMicros) := by
  refine bind get fun alarm => bind (act fun _ => rfl) fun hertz => bind (obtainTimer _) ?_
  rintro (e | handle)
  · exact pure _
  · refine bind (act fun _ => rfl) ?_
    rintro (reason | _)
    · exact pure _
    · exact bind (modifyGet _) fun _ => pure _

theorem start (job : κ) : Attests b (start b.timers job) := by
  refine bind get fun alarm => ?_
  cases alarm.triggered with
  | true => exact pure _
  | false =>
    refine bind (register _ _) ?_
    rintro (e | arming)
    · exact pure _
    · exact bind (modifyGet _) fun _ => pure _

theorem destroy : Attests b (destroy b.timers : StateT (Alarm κ η) _ _) := by
  refine bind get fun alarm => ?_
  cases alarm.timer with
  | none => exact pure _
  | some handle =>
    refine bind (act fun _ => rfl) fun stopped => bind (act fun _ => rfl) fun deleted => ?_
    split
    · exact modifyGet _
    · exact pure _

end Attests

/-- Whatever is done with an alarm, the answers recorded are the facility's. -/
theorem answered_perform (operation : Operation κ) : Attests b (operation.perform b) := by
  cases operation with
  | ask c =>
    refine .bind ?_ fun _ => .pure _
    cases c with
    | create job =>
      refine .bind ?_ fun _ => .pure _
      cases job with
      | none => exact .pure _
      | some job => exact .bind (.start job) fun _ => .pure _
    | start job => exact .bind (.start job) fun _ => .pure _
    | stop => exact .bind (.modifyGet _) fun _ => .pure _
    | register job delayMicros => exact .bind (.register _ _) fun _ => .pure _
    | destroy => exact .bind .destroy fun _ => .pure _
  | expire => exact .bind (.modifyGet _) fun _ => .pure _
  | settle => exact .bind (.modifyGet _) fun _ => .pure _
  | trigger =>
    refine .bind (.bind (.modifyGet _) ?_) fun _ => .pure _
    rintro (_ | job)
    · exact .bind (.pure _) fun _ => .modifyGet _
    · exact .bind (.act fun _ => trivial) fun _ => .modifyGet _

/-- One more operation, with all that can come of it where the answers are the facility's. -/
theorem Course.exists_answered_step (b : Behaviour κ η φ) {s : Course κ η φ}
    (hs : Answered b s.actions) (operation : Operation κ) :
    ∃ actions answer after, s.step b operation = s.record operation actions answer after ∧
      operation.Effect s.alarm actions answer after ∧ Answered b (s.actions ++ actions) := by
  obtain ⟨actions, answer, after, hstep, heffect⟩ := s.exists_step_eq b operation
  have hanswered : Answered b (s.step b operation).actions :=
    answered_perform operation s.alarm s.actions hs
  rw [hstep] at hanswered
  exact ⟨actions, answer, after, hstep, heffect, hanswered⟩

theorem Course.answered (b : Behaviour κ η φ) (config : Config) (operations : List (Operation κ)) :
    Answered b (course b config operations).actions := by
  induction operations using List.reverseRecOn with
  | nil => exact answered_nil
  | append_singleton operations operation ih =>
    rw [course_concat]
    exact answered_perform operation _ _ ih

/-- What holds of a new alarm and is kept by every operation, whatever the facility answers, holds
in every course. -/
theorem answered_induction {P : Course κ η φ → Prop} (b : Behaviour κ η φ) {config : Config}
    (hnew : P { alarm := { config } })
    (hrecord : ∀ (s : Course κ η φ) operation actions answer after, P s →
      operation.Effect s.alarm actions answer after → Answered b (s.actions ++ actions) →
        P (s.record operation actions answer after))
    (operations : List (Operation κ)) : P (course b config operations) := by
  induction operations using List.reverseRecOn with
  | nil => exact hnew
  | append_singleton operations operation ih =>
    obtain ⟨actions, answer, after, hstep, heffect, hanswered⟩ :=
      Course.exists_answered_step b (Course.answered b config operations) operation
    rw [course_concat, hstep]
    exact hrecord _ operation actions answer after ih heffect hanswered

/-! ### A facility -/

/-- The facility that numbers its timers, and fails after `done` if `fails done`. -/
def numbered (fails : List (Action κ Nat Unit) → Bool) : Facility κ Nat Unit where
  rate _ := 1000
  create done _ _ := if fails done then .error () else .ok (creations done + 1)
  start done handle _ := if Live done handle ∧ fails done = false then .ok () else .error ()
  stop done handle := if Live done handle ∧ fails done = false then .ok () else .error ()
  delete done handle := if Live done handle ∧ fails done = false then .ok () else .error ()
  live_of_start done handle ticks h := by
    by_contra hlive
    simp [hlive] at h
  live_of_stop done handle h := by
    by_contra hlive
    simp [hlive] at h
  live_of_delete done handle h := by
    by_contra hlive
    simp [hlive] at h

/-- The facility that numbers its timers, in which only the call fails that comes after `n`
others. -/
def failingOnce (n : Nat) : Facility κ Nat Unit := numbered fun done => done.length == n

/-- It has recovered as soon as the call has failed. -/
theorem failingOnce_recovered {n : Nat} {done : List (Action κ Nat Unit)} (h : n < done.length) :
    (failingOnce n).Recovered done := by
  have hfails (more : List (Action κ Nat Unit)) : ((done ++ more).length == n) = false := by
    have hlength : (done ++ more).length ≠ n := by
      rw [List.length_append]
      omega
    simpa using hlength
  constructor
  · intro more name ticks
    exact ⟨creations (done ++ more) + 1, by simp only [failingOnce, numbered, hfails]; rfl⟩
  · intro more handle ticks hlive
    simp only [failingOnce, numbered, hfails, hlive, and_self, ↓reduceIte]
  · intro more handle hlive
    simp only [failingOnce, numbered, hfails, hlive, and_self, ↓reduceIte]
  · intro more handle hlive
    simp only [failingOnce, numbered, hfails, hlive, and_self, ↓reduceIte]

end ElementHost.Alarm
