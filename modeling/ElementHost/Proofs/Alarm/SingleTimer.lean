import ElementHost.Proofs.Alarm.Course
import Mathlib.Algebra.Group.Nat.Defs

/-!
# An alarm has a single timer

An alarm creates its timers one after the other.  A handle need not be new: the facility may give
the handle of a deleted timer to the next one.  So a timer is known by the moment of its creation,
and what is done to a handle is done to the timer that was created last.

* `Action.created?`, `lastCreated`, `tenure`, the timers that the actions of an alarm speak of;
* `Cleared`, `Undeleted`, what has become of them, and `Action.Permitted`, what may be done next;
* `Accounted`, that an alarm knows of every timer that is left, one lemma for each kind of action;
* `single_timer`, the law of every course.
-/

namespace ElementHost.Alarm

variable {κ η φ : Type}

/-- The handle of the timer that was created. -/
def Action.created? : Action κ η φ → Option η
  | create _ _ (.ok handle) => some handle
  | _ => none

/-- The handle of the timer that was created last. -/
def lastCreated (done : List (Action κ η φ)) : Option η :=
  done.reverse.findSome? Action.created?

/-- The number of timers created. -/
def creations (done : List (Action κ η φ)) : Nat :=
  done.countP (·.created?.isSome)

/-- What was done until the next timer was created. -/
def tenure (later : List (Action κ η φ)) : List (Action κ η φ) :=
  later.takeWhile (·.created?.isNone)

/-- Every timer created so far was stopped and deleted, both with success, before the next one was
created. -/
def Cleared (done : List (Action κ η φ)) : Prop :=
  ∀ earlier action later handle, done = earlier ++ action :: later →
    action.created? = some handle →
      .stop handle (.ok ()) ∈ tenure later ∧ .delete handle (.ok ()) ∈ tenure later

/-- A timer was created after `earlier` and has not been deleted. -/
def Undeleted (done earlier : List (Action κ η φ)) : Prop :=
  ∃ action later handle, done = earlier ++ action :: later ∧ action.created? = some handle ∧
    .delete handle (.ok ()) ∉ tenure later

/-- What an alarm may do: it asks for a timer if there is none left, and uses the one created
last. -/
def Action.Permitted (earlier : List (Action κ η φ)) : Action κ η φ → Prop
  | create _ _ _ => Cleared earlier
  | start handle _ _ => lastCreated earlier = some handle
  | stop handle _ => lastCreated earlier = some handle
  | delete handle _ => lastCreated earlier = some handle
  | rate _ => True
  | run _ => True

/-! ### One more action -/

theorem lastCreated_concat (done : List (Action κ η φ)) (action : Action κ η φ) :
    lastCreated (done ++ [action]) = action.created?.or (lastCreated done) := by
  cases h : action.created? with
  | none => simp [lastCreated, h]
  | some handle => simp [lastCreated, h]

theorem creations_concat (done : List (Action κ η φ)) (action : Action κ η φ) :
    creations (done ++ [action]) = creations done + if action.created?.isSome then 1 else 0 := by
  simp [creations, List.countP_append, List.countP_singleton]

theorem tenure_subset_append (later more : List (Action κ η φ)) :
    tenure later ⊆ tenure (later ++ more) := by
  intro action h
  rw [tenure, List.takeWhile_append]
  split
  · exact List.mem_append_left _ ((List.takeWhile_prefix _).subset h)
  · exact h

theorem tenure_append_of_forall {later : List (Action κ η φ)}
    (h : ∀ action ∈ later, action.created? = none) (more : List (Action κ η φ)) :
    tenure (later ++ more) = later ++ tenure more :=
  List.takeWhile_append_of_pos fun action ha => by simp [h action ha]

theorem cleared_nil : Cleared ([] : List (Action κ η φ)) := by
  rintro earlier action later handle h
  simp at h

theorem Cleared.concat {done : List (Action κ η φ)} (hdone : Cleared done) {action : Action κ η φ}
    (h : action.created? = none) : Cleared (done ++ [action]) := by
  intro earlier creation later handle hsplit hcreated
  rcases (concat_eq_split_iff ..).1 hsplit with ⟨-, -, rfl⟩ | ⟨between, rfl, hbetween⟩
  · rw [h] at hcreated
    cases hcreated
  · obtain ⟨hstop, hdelete⟩ := hdone earlier creation between handle hbetween hcreated
    exact ⟨tenure_subset_append _ _ hstop, tenure_subset_append _ _ hdelete⟩

/-! ### Where every action is permitted -/

/-- The alarm did nothing but what it may do. -/
def Disciplined (done : List (Action κ η φ)) : Prop :=
  ∀ earlier action later, done = earlier ++ action :: later → action.Permitted earlier

theorem disciplined_nil : Disciplined ([] : List (Action κ η φ)) := by
  rintro earlier action later h
  simp at h

theorem disciplined_concat_iff (done : List (Action κ η φ)) (action : Action κ η φ) :
    Disciplined (done ++ [action]) ↔ Disciplined done ∧ action.Permitted done :=
  forall_moment_concat_iff ..

theorem Disciplined.of_prefix {done all : List (Action κ η φ)} (hall : Disciplined all)
    (h : done <+: all) : Disciplined done := by
  obtain ⟨rest, rfl⟩ := h
  rintro earlier action later rfl
  exact hall earlier action (later ++ rest) (by simp)

/-- A timer is created only after those before it have been cleared. -/
theorem Disciplined.cleared {done earlier later : List (Action κ η φ)} {action : Action κ η φ}
    {handle : η} (hdone : Disciplined done) (h : done = earlier ++ action :: later)
    (hcreated : action.created? = some handle) : Cleared earlier := by
  have hpermitted := hdone earlier action later h
  cases action with
  | create => exact hpermitted
  | rate | start | stop | delete | run => cases hcreated

/-- A timer is deleted before the next one is created. -/
theorem Disciplined.deleted {done earlier between later : List (Action κ η φ)}
    {action next : Action κ η φ} {handle fresh : η} (hdone : Disciplined done)
    (h : done = (earlier ++ action :: between) ++ next :: later)
    (hcreated : action.created? = some handle) (hnext : next.created? = some fresh) :
    .delete handle (.ok ()) ∈ tenure (between ++ next :: later) := by
  obtain ⟨-, hdelete⟩ := hdone.cleared h hnext earlier action between handle rfl hcreated
  exact tenure_subset_append _ _ hdelete

theorem Disciplined.undeleted_unique {done one other : List (Action κ η φ)}
    (hdone : Disciplined done) (hone : Undeleted done one) (hother : Undeleted done other) :
    one = other := by
  obtain ⟨action, later, handle, hsplit, hcreated, hdelete⟩ := hone
  obtain ⟨action', later', handle', hsplit', hcreated', hdelete'⟩ := hother
  rcases moment_trichotomy (hsplit.symm.trans hsplit') with
    ⟨between, rfl, rfl⟩ | ⟨h, -, -⟩ | ⟨between, rfl, rfl⟩
  · exact absurd (hdone.deleted hsplit' hcreated hcreated') hdelete
  · exact h
  · exact absurd (hdone.deleted hsplit hcreated' hcreated) hdelete'

/-- The end of the timer created last leaves none. -/
theorem Disciplined.cleared_destroy {done : List (Action κ η φ)} {handle : η}
    (hdone : Disciplined done) (h : lastCreated done = some handle) :
    Cleared (done ++ [.stop handle (.ok ()), .delete handle (.ok ())]) := by
  obtain ⟨later, last, earlier, hreverse, hlast, hnone⟩ := List.findSome?_eq_some_iff.1 h
  obtain rfl : done = earlier.reverse ++ last :: later.reverse := by
    rw [← List.reverse_reverse done, hreverse]
    simp
  have hlater : ∀ action ∈ later.reverse, action.created? = none := by simpa using hnone
  intro before action rest created hsplit hcreated
  rw [List.append_assoc, List.cons_append] at hsplit
  rcases moment_trichotomy hsplit with ⟨between, -, hrest⟩ | ⟨-, rfl, rfl⟩ | ⟨between, hbefore, rfl⟩
  · -- no timer is created after the last one
    have hmem : action ∈ later.reverse ++ [.stop handle (.ok ()), .delete handle (.ok ())] := by
      simp [hrest]
    rcases List.mem_append.1 hmem with hmem | hmem
    · simp [hlater action hmem] at hcreated
    · obtain rfl | rfl : action = .stop handle (.ok ()) ∨ action = .delete handle (.ok ()) := by
        simpa using hmem
      · cases hcreated
      · cases hcreated
  · obtain rfl : handle = created := Option.some.inj (hlast.symm.trans hcreated)
    rw [tenure_append_of_forall hlater]
    simp [tenure, Action.created?]
  · obtain ⟨hstop, hdelete⟩ :=
      hdone.cleared rfl hlast before action between created hbefore hcreated
    exact ⟨tenure_subset_append _ _ hstop, tenure_subset_append _ _ hdelete⟩

/-! ### What an alarm knows of its timers -/

/-- An alarm with the timer `timer` that counts `created` timers knows of every timer that is left
of what was done. -/
structure Accounted (timer : Option η) (created : UInt32) (done : List (Action κ η φ)) : Prop where
  disciplined : Disciplined done
  cleared : timer = none → Cleared done
  current : ∀ handle, timer = some handle → lastCreated done = some handle
  count : created = UInt32.ofNat (creations done)

namespace Accounted

variable {timer : Option η} {created : UInt32} {done : List (Action κ η φ)}

theorem init : Accounted (none : Option η) 0 ([] : List (Action κ η φ)) :=
  ⟨disciplined_nil, fun _ => cleared_nil, nofun, rfl⟩

/-- Whatever is permitted and creates no timer. -/
theorem concat (h : Accounted timer created done) {action : Action κ η φ}
    (hcreated : action.created? = none) (hpermitted : action.Permitted done) :
    Accounted timer created (done ++ [action]) where
  disciplined := (disciplined_concat_iff ..).2 ⟨h.disciplined, hpermitted⟩
  cleared hnone := (h.cleared hnone).concat hcreated
  current handle htimer := by simp [lastCreated_concat, hcreated, h.current handle htimer]
  count := by simp [creations_concat, hcreated, h.count]

theorem create (h : Accounted none created done) (name : String) (ticks : UInt32) (handle : η) :
    Accounted (some handle) (created + 1) (done ++ [.create name ticks (.ok handle)]) where
  disciplined := (disciplined_concat_iff ..).2 ⟨h.disciplined, h.cleared rfl⟩
  cleared := nofun
  current := by
    rintro _ ⟨⟩
    simp [lastCreated_concat, Action.created?]
  count := by simp [creations_concat, Action.created?, h.count, UInt32.ofNat_add]

/-- Stopping and deleting the timer, with any success. -/
theorem release {handle : η} (h : Accounted (some handle) created done)
    (stopped deleted : Except φ Unit) :
    Accounted (some handle) created (done ++ [.stop handle stopped, .delete handle deleted]) := by
  have hstop : Accounted (some handle) created (done ++ [.stop handle stopped]) :=
    h.concat rfl (h.current handle rfl)
  rw [List.append_cons]
  exact hstop.concat rfl (hstop.current handle rfl)

theorem destroy {handle : η} (h : Accounted (some handle) created done) :
    Accounted none created
      (done ++ [.stop handle (.ok ()), .delete handle (.ok ())]) where
  disciplined := (h.release (.ok ()) (.ok ())).disciplined
  cleared _ := h.disciplined.cleared_destroy (h.current handle rfl)
  current := nofun
  count := (h.release (.ok ()) (.ok ())).count

end Accounted

theorem Obtains.accounted {alarm after : Alarm κ η} {ticks : UInt32} {handle : η}
    {done actions : List (Action κ η φ)} (hdone : Accounted alarm.timer alarm.created done)
    (h : Obtains alarm ticks actions handle after) :
    Accounted after.timer after.created (done ++ actions) := by
  cases h with
  | kept => simpa using hdone
  | created htimer =>
    rw [htimer] at hdone
    exact hdone.create ..

theorem Registers.accounted {alarm after : Alarm κ η} {job : κ} {delayMicros : UInt32}
    {done actions : List (Action κ η φ)} {result : Except Error Arming}
    (hdone : Accounted alarm.timer alarm.created done)
    (h : Registers alarm job delayMicros actions result after) :
    Accounted after.timer after.created (done ++ actions) := by
  have hrate (hertz : UInt32) : Accounted alarm.timer alarm.created (done ++ [.rate hertz]) :=
    hdone.concat rfl trivial
  -- a timer that has been obtained may be started, whatever comes of it
  have hstart {hertz ticks : UInt32} {actions : List (Action κ η φ)} {handle : η}
      {after : Alarm κ η} (hobtains : Obtains alarm ticks actions handle after)
      (answer : Except φ Unit) : Accounted after.timer after.created
        (done ++ .rate hertz :: (actions ++ [.start handle ticks answer])) := by
    have hafter := hobtains.accounted (hrate hertz)
    have hnext : Accounted after.timer after.created
        (done ++ [.rate hertz] ++ actions ++ [.start handle ticks answer]) :=
      hafter.concat rfl (hafter.current handle hobtains.after.1)
    simpa using hnext
  cases h with
  | uncreated hertz reason htimer =>
    rw [List.append_cons]
    exact (hrate hertz).concat rfl ((hrate hertz).cleared htimer)
  | unstarted reason hobtains => exact hstart hobtains (.error reason)
  | started hobtains => exact hstart hobtains (.ok ())

theorem Command.Effect.accounted {alarm after : Alarm κ η} {c : Command κ} {reply : Reply}
    {done actions : List (Action κ η φ)} (hdone : Accounted alarm.timer alarm.created done)
    (h : c.Effect alarm actions reply after) :
    Accounted after.timer after.created (done ++ actions) := by
  cases h with
  | registered _ hregisters => simpa using hregisters.accounted hdone
  | failed _ hregisters => exact hregisters.accounted hdone
  | declined | stopped | absent => simpa using hdone
  | destroyed htimer =>
    rw [htimer] at hdone
    exact hdone.destroy
  | undestroyed stopped deleted htimer =>
    rw [htimer] at hdone ⊢
    exact hdone.release stopped deleted

theorem Operation.Effect.accounted {alarm after : Alarm κ η} {operation : Operation κ}
    {answer : Answer κ} {done actions : List (Action κ η φ)}
    (hdone : Accounted alarm.timer alarm.created done)
    (h : operation.Effect alarm actions answer after) :
    Accounted after.timer after.created (done ++ actions) := by
  cases h with
  | asked heffect => exact heffect.accounted hdone
  | expired | settled => simpa using hdone
  | triggered =>
    cases alarm.job with
    | none => simpa using hdone
    | some job => exact hdone.concat rfl trivial

theorem Course.accounted (b : Behaviour κ η φ) (config : Config) (operations : List (Operation κ)) :
    let s := course b config operations
    Accounted s.alarm.timer s.alarm.created s.actions :=
  course_induction b (P := fun s => Accounted s.alarm.timer s.alarm.created s.actions) .init
    (fun _ _ _ _ _ hs h => h.accounted hs) operations

/-- Whatever the facility does and whichever handles it gives, an alarm asks for a timer only after
every timer before has been stopped and deleted, so that there is never more than one that has not
been deleted.  It uses none but the timer created last, and it counts the timers created. -/
theorem single_timer (b : Behaviour κ η φ) (config : Config) (operations : List (Operation κ)) :
    let s := course b config operations
    (∀ earlier action later, s.actions = earlier ++ action :: later → action.Permitted earlier) ∧
      (∀ done, done <+: s.actions →
        ∀ one other, Undeleted done one → Undeleted done other → one = other) ∧
      (creations s.actions < 2 ^ 32 → s.alarm.created.toNat = creations s.actions) := by
  have h := Course.accounted b config operations
  refine ⟨h.disciplined, ?_, ?_⟩
  · intro done hprefix one other
    exact (h.disciplined.of_prefix hprefix).undeleted_unique
  · intro hlt
    rw [h.count, UInt32.toNat_ofNat', Nat.mod_eq_of_lt hlt]

end ElementHost.Alarm
