import ElementHost.Completion.Request
import ElementHost.Proofs.Completion.Deadline

/-!
# The three ways to make a request

A request is made in one of three ways: by polling, by polling until a timeout, or as a future.
While an operation is being issued, and while the clock is read, anything may happen to the rest of
the world, and any number of statuses may be published.

* `Completion.offer`, a completion after some publications, and `Completion.result_offer`;
* `Activity`, what is done in between, `Activity.play`, what it comes to, and
  `Activity.run_perform`;
* `run_issued`, what the three ways have in common;
* `ways_agree`, the law of all requests whose operation is answered while it is issued.

`Activity.play` is told the result of the completion and nothing else.  An armed completion has
none, so nothing of what happened to it before can be seen.
-/

namespace ElementHost

namespace Completion

/-! ### Publishing again and again -/

/-- The final status that counts, of those that were published for an operation. -/
def firstFinal (statuses : List Status) : Option Status := statuses.find? (· ≠ Status.busy)

/-- A completion to which some statuses have been published. -/
def offer (statuses : List Status) (c : Completion) : Completion :=
  statuses.foldl (fun c status => (c.publish status).2) c

theorem getD_result (c : Completion) : c.result.getD Status.busy = c.status := by
  unfold result
  split
  · next h => exact h.symm
  · rfl

theorem offer_cons (status : Status) (statuses : List Status) (c : Completion) :
    c.offer (status :: statuses) = (c.publish status).2.offer statuses := rfl

theorem firstFinal_cons (status : Status) (statuses : List Status) :
    firstFinal (status :: statuses) = (firstFinal [status]).or (firstFinal statuses) := by
  by_cases h : status = Status.busy <;> simp [firstFinal, h]

theorem firstFinal_isSome {statuses : List Status}
    (h : ∃ status ∈ statuses, status ≠ Status.busy) :
    ∃ code, firstFinal statuses = some code := by
  rw [← Option.isSome_iff_exists, firstFinal, List.find?_isSome]
  simpa using h

/-- A publication makes a result if there is none yet and the status is a final one. -/
theorem result_publish (status : Status) (c : Completion) :
    (c.publish status).2.result = c.result.or (firstFinal [status]) := by
  cases haccepted : (c.publish status).1 with
  | true =>
    obtain ⟨hfinal, hbusy⟩ := (publish_accepted_iff status c).1 haccepted
    rw [result_publish_of_accepted haccepted, (result_eq_none_iff c).2 hbusy]
    simp [firstFinal, hfinal]
  | false =>
    rw [publish_of_refused haccepted]
    by_cases hfinal : status = Status.busy
    · simp [firstFinal, hfinal]
    · cases hresult : c.result with
      | some other => rfl
      | none =>
        have hbusy := (result_eq_none_iff c).1 hresult
        rw [(publish_accepted_iff status c).2 ⟨hfinal, hbusy⟩] at haccepted
        cases haccepted

/-- The result is the one that was there already, or the first final status. -/
theorem result_offer (statuses : List Status) (c : Completion) :
    (c.offer statuses).result = c.result.or (firstFinal statuses) := by
  induction statuses generalizing c with
  | nil => simp [offer, firstFinal]
  | cons status statuses ih =>
    rw [offer_cons, ih, result_publish, Option.or_assoc, ← firstFinal_cons]

/-- A completion that has a result takes no other. -/
theorem offer_of_result {c : Completion} {status : Status} (h : c.result = some status)
    (statuses : List Status) : c.offer statuses = c := by
  induction statuses with
  | nil => rfl
  | cons other statuses ih =>
    have hrefused : (c.publish other).1 = false := by
      rw [← Bool.not_eq_true, publish_accepted_iff, ← result_eq_none_iff, h]
      simp
    rw [offer_cons, publish_of_refused hrefused, ih]

end Completion

namespace Request

variable {σ ρ : Type}

/-- What is done to a completion and to a world `σ` besides, one thing after the other, each chosen
by what was seen so far, with a reply `ρ` in the end. -/
inductive Activity (σ ρ : Type)
  | done (reply : ρ)
  | publish (status : Status) (next : Bool → Activity σ ρ)
  /-- Looks at the result. -/
  | look (next : Option Status → Activity σ ρ)
  /-- Changes the world, having looked at it. -/
  | act (f : σ → σ) (next : σ → Activity σ ρ)

/-- What an activity comes to. -/
structure Ending (σ ρ : Type) where
  reply : ρ
  /-- The statuses it published, the first one first. -/
  published : List Status
  world : σ

namespace Activity

/-- Does what there is to do. -/
def perform : Activity σ ρ → StateT Completion (StateM σ) ρ
  | done reply => return reply
  | publish status next => do
    let accepted ← publishStatus status
    (next accepted).perform
  | look next => do
    let c ← getThe Completion
    (next c.result).perform
  | act f next => do
    let world ← getThe σ
    modifyThe σ f
    (next world).perform

/-- What an activity comes to, given the result of the completion it begins with. -/
def play : Activity σ ρ → Option Status → σ → Ending σ ρ
  | done reply, _, world => ⟨reply, [], world⟩
  | publish status next, result, world =>
    let accepted := decide (status ≠ Status.busy ∧ result = none)
    let ending := (next accepted).play (result.or (Completion.firstFinal [status])) world
    { ending with published := status :: ending.published }
  | look next, result, world => (next result).play result world
  | act f next, result, world => (next world).play result (f world)

theorem run_perform (activity : Activity σ ρ) (c : Completion) (world : σ) :
    (activity.perform.run c).run world =
      let ending := activity.play c.result world
      ((ending.reply, c.offer ending.published), ending.world) := by
  induction activity generalizing c world with
  | done reply => rfl
  | publish status next ih =>
    have hpublish : ((publishStatus status : StateT Completion (StateM σ) Bool).run c).run world =
        (c.publish status, world) := rfl
    have haccepted : (c.publish status).1 = decide (status ≠ Status.busy ∧ c.result = none) := by
      rw [Bool.eq_iff_iff, Completion.publish_accepted_iff, decide_eq_true_iff,
        Completion.result_eq_none_iff]
    rw [perform, StateT.run_bind, StateT.run_bind, hpublish]
    show ((next (c.publish status).1).perform.run (c.publish status).2).run world = _
    rw [ih, haccepted, Completion.result_publish]
    rfl
  | look next ih => exact ih c.result c world
  | act f next ih => exact ih world c (f world)

end Activity

/-! ### The three ways -/

section Ways

variable {α β : Type} {issue : StateT Completion (StateM σ) (Except Status Unit)}
  {relax : StateT Completion (StateM σ) Unit} {uptime : Uptime (StateT Completion (StateM σ))}
  {timeout : UInt32} {bound : ℕ} {waker : Waker}
  {c c' : Completion} {world world' world'' : σ} {code : Status}

/-- A computation goes on where its first part has ended. -/
theorem run_bind_of_run {f : StateT Completion (StateM σ) α} {a : α}
    (h : (f.run c).run world = ((a, c'), world')) (g : α → StateT Completion (StateM σ) β) :
    ((f >>= g).run c).run world = ((g a).run c').run world' := by
  simp only [StateT.run_bind, h]
  rfl

theorem run_bind_of_some {f : OptionT (StateT Completion (StateM σ)) α} {a : α}
    (h : (f.run.run c).run world = ((some a, c'), world'))
    (g : α → OptionT (StateT Completion (StateM σ)) β) :
    ((f >>= g).run.run c).run world = ((g a).run.run c').run world' := by
  rw [OptionT.run_bind, Option.elimM, run_bind_of_run h]
  rfl

/-- The completion is armed and the operation is issued, and then comes the rest. -/
theorem run_issued {reply : Except Status Unit}
    (h : (issue.run c.arm).run world = ((reply, c'), world'))
    (rest : Except Status Unit → StateT Completion (StateM σ) α) :
    ((do armCompletion; rest (← issue)).run c).run world = ((rest reply).run c').run world' := by
  have harm : ((armCompletion : StateT Completion (StateM σ) Unit).run c).run world =
      (((), c.arm), world) := rfl
  rw [run_bind_of_run harm, run_bind_of_run h]

theorem run_some_issued {reply : Except Status Unit}
    (h : (issue.run c.arm).run world = ((reply, c'), world'))
    (rest : Except Status Unit → OptionT (StateT Completion (StateM σ)) α) :
    ((do
        (armCompletion : StateT Completion (StateM σ) Unit)
        rest (← issue) : OptionT (StateT Completion (StateM σ)) α).run.run c).run world =
      ((rest reply).run.run c').run world' :=
  run_issued h fun reply => (rest reply).run

theorem run_of_rejected (h : (issue.run c.arm).run world = ((.error code, c'), world')) :
    ((run relax bound issue).run.run c).run world =
      ((some (.error (.rejected code)), c'), world') :=
  run_some_issued h _

theorem run_of_result (h : (issue.run c.arm).run world = ((.ok (), c'), world'))
    (hresult : c'.result = some code) (hbound : 0 < bound) :
    ((run relax bound issue).run.run c).run world = ((some (verdict code), c'), world') := by
  obtain ⟨bound, rfl⟩ := Nat.exists_eq_succ_of_ne_zero (Nat.ne_of_gt hbound)
  have hspin : ((Completion.spin relax (bound + 1)).run.run c').run world' =
      ((some code, c'), world') := by
    rw [Completion.spin, Completion.run_looked, hresult]
    rfl
  exact (run_some_issued h _).trans (run_bind_of_some hspin _)

theorem runUntil_of_rejected (h : (issue.run c.arm).run world = ((.error code, c'), world')) :
    ((runUntil uptime timeout bound issue).run.run c).run world =
      ((some (.error (.rejected code)), c'), world') :=
  run_some_issued h _

/-- The clock is read once, whatever it shows. -/
theorem runUntil_of_result {now : UInt32}
    (h : (issue.run c.arm).run world = ((.ok (), c'), world'))
    (hresult : c'.result = some code) (hbound : 0 < bound)
    (hread : (uptime.millis.run c').run world' = ((now, c'), world'')) :
    ((runUntil uptime timeout bound issue).run.run c).run world =
      ((some (verdict code), c'), world'') := by
  obtain ⟨bound, rfl⟩ := Nat.exists_eq_succ_of_ne_zero (Nat.ne_of_gt hbound)
  have hwait : ((Completion.waitUntil uptime timeout (bound + 1)).run.run c').run world' =
      ((some (.ok code), c'), world'') := by
    have hlift : ((OptionT.lift uptime.millis).run.run c').run world' =
        ((some now, c'), world'') := run_bind_of_run hread fun now => pure (some now)
    refine (run_bind_of_some hlift _).trans ?_
    rw [Completion.run_waitFrom_of_result hresult]
    rfl
  exact (run_some_issued h _).trans (run_bind_of_some hwait _)

theorem poll_of_rejected (h : (issue.run c.arm).run world = ((.error code, c'), world')) :
    (((Future.unissued issue).poll waker).run c).run world =
      ((.ready (.error (.rejected code)), c'), world') :=
  run_issued h _

theorem poll_of_result (h : (issue.run c.arm).run world = ((.ok (), c'), world'))
    (hresult : c'.result = some code) :
    (((Future.unissued issue).poll waker).run c).run world =
      ((.ready (verdict code), c'), world') := by
  have hawait : ((modifyGetThe Completion (Completion.Wait.fresh.poll waker) :
      StateT Completion (StateM σ) _).run c').run world' = ((.ready code, c'), world') :=
    congrArg (·, world') (Completion.await_of_result hresult waker)
  exact (run_issued h _).trans (run_bind_of_run hawait _)

end Ways

/-- **The three ways agree.**  Whatever happened to a completion before, let an operation be issued
that publishes any statuses there and does anything to the rest of the world; and if it is not
turned down, let one of the statuses be a final one.  Then all three ways to make the request come
to the same and leave the same completion behind.  An operation that is turned down is rejected at
once, whatever it published.  Otherwise the first final status decides.  A future is done when it is
polled for the first time; a wait with a timeout reads the clock once, whatever the clock does and
however short the timeout is. -/
theorem ways_agree (issue : Activity σ (Except Status Unit)) (world : σ)
    (hfinal : (issue.play none world).reply = .ok () →
      ∃ status ∈ (issue.play none world).published, status ≠ Status.busy) :
    let issued := issue.play none world
    ∃ result : Except Error Unit,
      (match issued.reply with
        | .error code => result = .error (.rejected code)
        | .ok () => ∃ code, Completion.firstFinal issued.published = some code ∧
            result = if code = Status.success then .ok () else .error (.failed code)) ∧
      ∀ (c : Completion) relax (clock : Activity σ UInt32) timeout bound waker,
        (issued.reply = .ok () → 0 < bound) →
        let c' := c.arm.offer issued.published
        c'.status = (Completion.firstFinal issued.published).getD Status.busy ∧
        ((run relax bound issue.perform).run.run c).run world =
          ((some result, c'), issued.world) ∧
        ((runUntil ⟨clock.perform⟩ timeout bound issue.perform).run.run c).run world =
          ((some result, c'), match issued.reply with
            | .error _ => issued.world
            | .ok () => ((clock.perform.run c').run issued.world).2) ∧
        (((Future.unissued issue.perform).poll waker).run c).run world =
          ((.ready result, c'), issued.world) := by
  intro issued
  have hissue (c : Completion) : (issue.perform.run c.arm).run world =
      ((issued.reply, c.arm.offer issued.published), issued.world) :=
    issue.run_perform c.arm world
  have hresult (c : Completion) :
      (c.arm.offer issued.published).result = Completion.firstFinal issued.published := by
    rw [Completion.result_offer, Completion.result_arm, Option.none_or]
  have hstatus (c : Completion) : (c.arm.offer issued.published).status =
      (Completion.firstFinal issued.published).getD Status.busy := by
    rw [← hresult c, Completion.getD_result]
  cases hreply : issued.reply with
  | error code =>
    simp only [hreply] at hissue
    refine ⟨_, rfl, fun c relax clock timeout bound waker _ => ⟨hstatus c, ?_⟩⟩
    exact ⟨run_of_rejected (hissue c), runUntil_of_rejected (hissue c), poll_of_rejected (hissue c)⟩
  | ok =>
    simp only [hreply] at hissue
    obtain ⟨code, hcode⟩ := Completion.firstFinal_isSome (hfinal hreply)
    refine ⟨verdict code, ⟨code, hcode, rfl⟩, ?_⟩
    intro c relax clock timeout bound waker hbound c'
    have hdone : c'.result = some code := (hresult c).trans hcode
    have hread := clock.run_perform c' issued.world
    simp only [Completion.offer_of_result hdone] at hread
    rw [hread]
    exact ⟨hstatus c, run_of_result (hissue c) hdone (hbound rfl),
      runUntil_of_result (hissue c) hdone (hbound rfl) hread, poll_of_result (hissue c) hdone⟩

/-- An operation that fails, and is reported as a success afterwards. -/
def failing : Activity ℕ (Except Status Unit) :=
  .publish Status.busy fun _ => .publish Status.linkFailure fun _ =>
    .publish Status.success fun _ => .done (.ok ())

/-- A clock that counts its readings. -/
def counting : Activity ℕ UInt32 := .act (· + 1) fun readings => .done readings.toUInt32

/-- An earlier success, whose signal was left raised, is not taken for the result. -/
theorem ways_agree_failing :
    let c : Completion := { signal := .raised }
    let c' : Completion := { status := Status.linkFailure, signal := .raised }
    ((run (pure ()) 1 failing.perform).run.run c).run 0 =
        ((some (.error (.failed Status.linkFailure)), c'), 0) ∧
      ((runUntil ⟨counting.perform⟩ 0 1 failing.perform).run.run c).run 0 =
        ((some (.error (.failed Status.linkFailure)), c'), 1) ∧
      (((Future.unissued failing.perform).poll 7).run c).run 0 =
        ((.ready (.error (.failed Status.linkFailure)), c'), 0) := by
  have hfinal : ∃ status ∈ (failing.play none 0).published, status ≠ Status.busy :=
    ⟨Status.linkFailure, by decide, by decide⟩
  obtain ⟨result, ⟨code, hcode, hresult⟩, hways⟩ := ways_agree failing 0 fun _ => hfinal
  obtain rfl : Status.linkFailure = code := Option.some.inj hcode
  obtain rfl : result = .error (.failed Status.linkFailure) := hresult
  exact (hways { signal := .raised } (pure ()) counting 0 1 7 fun _ => Nat.one_pos).2

end Request

end ElementHost
