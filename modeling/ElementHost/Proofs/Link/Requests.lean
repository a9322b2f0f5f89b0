import ElementHost.Completion.Request
import ElementHost.Proofs.Link.Session

/-!
# Requests over a link

A request makes a transfer over a link whose reports are published in the completion that the
request waits for.  The one report of the transfer is then the one status of the request, and it is
there before the wait begins: no request ever waits.

* `Wiring.publishing`, a wiring whose reports are published, and `reported`, the completion after
  the report of a result;
* `Exchange`, a write or a read, with `run_perform_publishing`: the publishing makes no difference
  to a transfer;
* `RequestT`, `outline`, what the three requests have in common, and `run_outline`;
* `request_agrees`, the law of every request over a link.
-/

namespace ElementHost

namespace Link

variable {m : Type → Type} [Monad m]

/-! ### Reports that are published -/

/-- The same wiring, with the status of every report published. -/
def Wiring.publishing (wiring : Wiring m) : Wiring (StateT Completion m) where
  bus := wiring.bus.lift
  delay := wiring.delay.lift
  notify outcome := do
    liftM (wiring.notify outcome)
    publishOutcome outcome

section Publishing

variable (wiring : Wiring m)

@[simp] theorem publishing_write (address : UInt8) (data : Bytes) (stop : Bool) :
    wiring.publishing.bus.write address data stop =
      StateT.lift (wiring.bus.write address data stop) := rfl

@[simp] theorem publishing_read (address : UInt8) (buffer : Bytes) (stop : Bool) :
    wiring.publishing.bus.read address buffer stop =
      StateT.lift (wiring.bus.read address buffer stop) := rfl

@[simp] theorem publishing_micros (amount : UInt32) :
    wiring.publishing.delay.micros amount = StateT.lift (wiring.delay.micros amount) := rfl

end Publishing

/-- The completion after the report of a result. -/
def reported (result : Except Error Unit) (c : Completion) : Completion :=
  (c.publish (.ofOutcome (.ofResult result))).2

/-- The report of a transfer resolves the operation in flight. -/
theorem result_reported_arm (result : Except Error Unit) (c : Completion) :
    (reported result c.arm).result = some (.ofOutcome (.ofResult result)) := by
  apply Completion.result_publish_of_accepted
  simp [Completion.publish, Completion.arm, Status.ofOutcome_ne_busy]

variable [LawfulMonad m]

@[simp] theorem run_publishing_notify (wiring : Wiring m) (outcome : Outcome) (c : Completion) :
    (wiring.publishing.notify outcome).run c =
      (fun _ => ((), (c.publish (.ofOutcome outcome)).2)) <$> wiring.notify outcome := by
  simp [Wiring.publishing, publishOutcome, publishStatus, discard, modifyGetThe, map_const]

theorem run_deny_publishing (wiring : Wiring m) (c : Completion) :
    (deny wiring.publishing).run c =
      (fun result => (result, reported result c)) <$> deny wiring := by
  simp [deny, reported, Outcome.ofResult, Error.outcome]

theorem run_report_publishing (wiring : Wiring m) (result : Except Fault Unit) (c : Completion) :
    (report wiring.publishing result).run c =
      (fun result => (result, reported result c)) <$> report wiring result := by
  simp [report_eq, reported]

/-- The attempts of a write publish nothing. -/
theorem writeFrom_publishing (wiring : Wiring m) (config : Config) (data : Bytes)
    (attempt : UInt8) :
    writeFrom wiring.publishing config data attempt =
      StateT.lift (writeFrom wiring config data attempt) := by
  induction attempt using writeFrom.induct config with
  | case1 attempt ih =>
    rw [writeFrom.eq_def wiring.publishing, writeFrom.eq_def wiring, Peer.write_eq, Peer.write_eq]
    ext c
    simp only [publishing_write, publishing_micros, StateT.run_bind, StateT.run_lift,
      bind_pure_comp, map_bind, bind_map_left]
    refine bind_congr ?_
    rintro (fault | _)
    · by_cases h : attempt < config.attempts
      · simp [h, ih h]
      · simp [h]
    · simp

theorem run_send_publishing (wiring : Wiring m) (data : Bytes) (link : Link) (c : Completion) :
    (send wiring.publishing data link).run c =
      (fun result => (result, reported result c)) <$> send wiring data link := by
  unfold send
  split
  · exact run_deny_publishing wiring c
  · simp [writeFrom_publishing, run_report_publishing]

theorem run_receive_publishing (wiring : Wiring m) (buffer : Bytes) (link : Link)
    (c : Completion) :
    (receive wiring.publishing buffer link).run c =
      (fun filled => (filled, reported filled.1 c)) <$> receive wiring buffer link := by
  unfold receive
  split
  · simp [run_deny_publishing]
  · simp [Peer.read_eq, run_report_publishing]

/-! ### Transfers -/

/-- A transfer over a link. -/
inductive Exchange
  | write (data : Bytes)
  | read (buffer : Bytes)
  deriving DecidableEq

/-- Makes a transfer.  What a read has filled its buffer with is left out. -/
def Exchange.perform (wiring : Wiring m) : Exchange → StateT Link m (Except Error Unit)
  | write data => Link.write wiring data
  | read buffer => Prod.fst <$> Link.read wiring buffer

/-- A transfer over a link whose reports are published is the same transfer, and its result is
reported. -/
theorem run_perform_publishing (wiring : Wiring m) (exchange : Exchange) (link : Link)
    (c : Completion) :
    ((exchange.perform wiring.publishing).run link).run c =
      (fun made => (made, reported made.1 c)) <$> (exchange.perform wiring).run link := by
  cases exchange with
  | write data => simp [Exchange.perform, run_write, run_send_publishing]
  | read buffer => simp [Exchange.perform, run_read, run_receive_publishing]

/-- Every transfer ends with one report, of its result. -/
theorem run_exchange (bus : Behaviour) (exchange : Exchange) (link : Link) (done : List Action) :
    ∃ result link' actions,
      ((exchange.perform bus.wiring).run link).run done =
        pure ((result, link'), done ++ actions) ∧ reports actions = [.ofResult result] := by
  cases exchange with
  | write data =>
    by_cases h : link.token.held = true
    · exact ⟨.error .busy, link, [.report .busy],
        by simp [Exchange.perform, run_write, send, h, run_deny], rfl⟩
    · obtain ⟨result, actions, hrun, hreports⟩ := run_send bus data (by simpa using h) done
      exact ⟨result, link, actions, by simp [Exchange.perform, run_write, hrun], hreports⟩
  | read buffer =>
    by_cases h : link.token.held = true
    · exact ⟨.error .busy, link.freed, [.report .busy],
        by simp [Exchange.perform, run_read, receive, h, run_deny], rfl⟩
    · obtain ⟨result, filled, actions, hrun, hreports⟩ :=
        run_receive bus buffer (by simpa using h) done
      exact ⟨result, link.freed, actions, by simp [Exchange.perform, run_read, hrun], hreports⟩

/-! ### Requests -/

/-- The computations with a link and the completion that its reports are published in. -/
abbrev RequestT (m : Type → Type) := StateT Link (StateT Completion m)

/-- The operation of a request: a transfer, with each error turned into a code. -/
def Exchange.issue (wiring : Wiring m) (code : Error → Status) (exchange : Exchange) :
    RequestT m (Except Status Unit) :=
  Except.mapError code <$> exchange.perform wiring.publishing

/-- A request in outline: it arms the completion, issues an operation, and waits unless the
operation was turned down. -/
def outline {α : Type} (issue : RequestT m (Except Status Unit)) (reject : Status → α)
    (wait : RequestT m α) : RequestT m α := do
  Request.armCompletion
  match ← issue with
  | .error code => return reject code
  | .ok () => wait

/-- A use of the completion leaves the link alone. -/
theorem run_modifyGet {α : Type} (f : Completion → α × Completion) (link : Link)
    (c : Completion) :
    ((modifyGetThe Completion f : RequestT m α).run link).run c =
      pure (((f c).1, link), (f c).2) := by
  show ((StateT.lift (modifyGet f : StateT Completion m α)).run link).run c = _
  simp

/-- A look at the completion in a wait that may end without an answer. -/
theorem run_look (link : Link) (c : Completion) :
    (((getThe Completion : OptionT (RequestT m) Completion).run).run link).run c =
      pure ((some c, link), c) := by
  show ((some <$> (StateT.lift get : RequestT m Completion)).run link).run c = _
  simp

/-- A request makes its transfer and answers by the result, if its wait answers at once, after
`look`. -/
theorem run_outline {α : Type} (wiring : Wiring m) (exchange : Exchange) (code : Error → Status)
    {reply : Except Request.Error Unit → α} {wait : RequestT m α} (look : m Unit)
    (hwait : ∀ link c status, c.result = some status →
      (wait.run link).run c = (fun _ => ((reply (Request.verdict status), link), c)) <$> look)
    (link : Link) (c : Completion) :
    ((outline (exchange.issue wiring code) (reply ∘ .error ∘ .rejected) wait).run link).run c = do
      let (result, link') ← (exchange.perform wiring).run link
      if result = .ok () then look
      return ((reply (result.mapError (.rejected ∘ code)), link'), reported result c.arm) := by
  have harm : ((Request.armCompletion : RequestT m Unit).run link).run c =
      pure (((), link), c.arm) := run_modifyGet (fun c => ((), c.arm)) link c
  simp only [outline, Exchange.issue, StateT.run_bind, harm, pure_bind,
    run_perform_publishing, bind_map_left]
  refine bind_congr ?_
  rintro ⟨_ | _, link'⟩
  · simp [Except.mapError]
  · simp [Except.mapError, hwait link' _ _ (result_reported_arm (.ok ()) c)]
    rfl

/-- The outline of a request whose wait may end without an answer. -/
theorem optionT_run_eq_outline {α : Type} (issue : RequestT m (Except Status Unit))
    (reject : Status → α) (wait : OptionT (RequestT m) α) :
    (do
      (Request.armCompletion : RequestT m Unit)
      match ← issue with
      | .error code => return reject code
      | .ok () => wait : OptionT (RequestT m) α).run = outline issue (some ∘ reject) wait.run := by
  simp only [outline, Option.elimM, OptionT.run_bind, OptionT.run_monadLift, monadLift_self,
    bind_map_left, Option.elim_some, Function.comp_apply]
  refine bind_congr fun _ => bind_congr ?_
  rintro (_ | _) <;> rfl

section Requests

variable (wiring : Wiring m) (exchange : Exchange) (code : Error → Status) (link : Link)
  (c : Completion)

/-- A request that polls finds the result in its first poll. -/
theorem run_request (relax : RequestT m Unit) (bound : Nat) :
    ((Request.run relax (bound + 1) (exchange.issue wiring code)).run.run link).run c = do
      let (result, link') ← (exchange.perform wiring).run link
      return ((some (result.mapError (.rejected ∘ code)), link'), reported result c.arm) := by
  have hrun : (Request.run relax (bound + 1) (exchange.issue wiring code)).run =
      outline (exchange.issue wiring code) (some ∘ .error ∘ .rejected) _ :=
    optionT_run_eq_outline ..
  rw [hrun, run_outline wiring exchange code (pure ())]
  · simp
  · intro link c status h
    simp [Completion.spin, Option.elimM, run_look, h, -monadStateOf_get_eq_get]

/-- A request with a timeout reads its clock once, and not at all if the transfer failed. -/
theorem run_requestUntil (clock : Uptime m) (timeout : UInt32) (bound : Nat) :
    ((Request.runUntil clock.lift timeout (bound + 1)
      (exchange.issue wiring code)).run.run link).run c = do
        let (result, link') ← (exchange.perform wiring).run link
        if result = .ok () then discard clock.millis
        return ((some (result.mapError (.rejected ∘ code)), link'), reported result c.arm) := by
  have hrun : (Request.runUntil clock.lift timeout (bound + 1) (exchange.issue wiring code)).run =
      outline (exchange.issue wiring code) (some ∘ .error ∘ .rejected) _ :=
    optionT_run_eq_outline ..
  rw [hrun, run_outline wiring exchange code (discard clock.millis)]
  intro link c status h
  simp [Completion.waitUntil, Completion.waitFrom, Option.elimM, Uptime.lift, run_look, h,
    -monadStateOf_get_eq_get, discard, map_const]

/-- The first poll of a request as a future is the last. -/
theorem run_requestPoll (waker : Waker) :
    (((Request.Future.unissued (exchange.issue wiring code)).poll waker).run link).run c = do
      let (result, link') ← (exchange.perform wiring).run link
      return ((.ready (result.mapError (.rejected ∘ code)), link'), reported result c.arm) := by
  have hrun : (Request.Future.unissued (exchange.issue wiring code)).poll waker =
      outline (exchange.issue wiring code) (.ready ∘ .error ∘ .rejected)
        (Request.awaitVerdict waker .fresh) := rfl
  rw [hrun, run_outline wiring exchange code (pure ())]
  · simp
  · intro link c status h
    simp [Request.awaitVerdict, Completion.Wait.poll, run_modifyGet,
      Completion.await_of_result h, -monadStateOf_modifyGet_eq_modifyGet]

end Requests

/-- **A request over a link neither waits nor disagrees with the link.**  Whatever the bus does and
whatever went before, the transfer of a request makes one report, of its result, and the status of
this report is the result of the completion from then on.  All requests answer by the result of the
transfer: a success is a success, and an error is the rejection with its code.  None of them waits
for that: polling needs no second poll, the clock is read once if the transfer succeeded and not at
all if it failed, and the future is ready when it is polled first. -/
theorem request_agrees (bus : Behaviour) (exchange : Exchange) (code : Error → Status)
    (link : Link) (c : Completion) (done : List Action) :
    ∃ result link' c' actions,
      (((exchange.perform bus.wiring.publishing).run link).run c.arm).run done =
        pure (((result, link'), c'), done ++ actions) ∧
      reports actions = [.ofResult result] ∧
      c'.result = some (.ofOutcome (.ofResult result)) ∧
      (∀ relax bound,
        (((Request.run relax (bound + 1) (exchange.issue bus.wiring code)).run.run link).run c).run
          done = pure (((some (result.mapError (.rejected ∘ code)), link'), c'), done ++ actions)) ∧
      (∀ (clock : Uptime RecordM) timeout bound,
        (((Request.runUntil clock.lift timeout (bound + 1)
          (exchange.issue bus.wiring code)).run.run link).run c).run done =
            pure (((some (result.mapError (.rejected ∘ code)), link'), c'),
              if result = .ok () then (clock.millis.run (done ++ actions)).2
              else done ++ actions)) ∧
      ∀ waker,
        ((((Request.Future.unissued (exchange.issue bus.wiring code)).poll waker).run link).run
          c).run done =
            pure (((.ready (result.mapError (.rejected ∘ code)), link'), c'), done ++ actions) := by
  obtain ⟨result, link', actions, hrun, hreports⟩ := run_exchange bus exchange link done
  refine ⟨result, link', reported result c.arm, actions, ?_, hreports,
    result_reported_arm result c, ?_, ?_, ?_⟩
  · simp [run_perform_publishing, hrun]
  · intro relax bound
    simp [run_request, hrun]
  · intro clock timeout bound
    by_cases h : result = .ok ()
    · simp only [run_requestUntil, StateT.run_bind, hrun, pure_bind, h, discard, map_const]
      rfl
    · simp [run_requestUntil, hrun, h]
  · intro waker
    simp [run_requestPoll, hrun]

/-- A write that is denied the token is rejected, and its report is published all the same. -/
example (bus : Behaviour) (data : Bytes) :
    (((Request.run (pure ()) 1 ((Exchange.write data).issue bus.wiring fun e =>
      .ofOutcome e.outcome)).run.run { token := ⟨true⟩ }).run {}).run [] =
        pure (((some (.error (.rejected Status.linkBusy)), { token := ⟨true⟩ }),
          { status := Status.linkBusy, signal := .raised }), [.report .busy]) := rfl

end Link

end ElementHost
