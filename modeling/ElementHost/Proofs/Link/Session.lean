import ElementHost.Proofs.Link.Equations
import ElementHost.Proofs.Moments

/-!
# Sessions with a link

A session is any list of commands given to a link one after the other.  The surroundings of the
link are as free as can be: a bus answers each call as it likes, knowing all that was done before
(`Behaviour`).  Whatever the link does to them is written down, in order (`Action`), and each
command leaves a record of its own (`Call`).

* `Behaviour.wiring`, `call`, `session`;
* `Call.Disciplined`, the rules that a single call keeps, and `run_call`, that every call does;
* `run_session`, a session one command longer, from which everything about sessions follows;
* `session_disciplined`, the law of every session: reports, token and bitrate.
-/

namespace ElementHost.Link

/-- What a link did to its surroundings. -/
inductive Action
  | write (address : UInt8) (data : Bytes) (stop : Bool)
  | read (address : UInt8) (buffer : Bytes) (stop : Bool)
  | configure (speed : Bus.Speed)
  | delay (unit : TimeUnit) (amount : UInt32)
  | report (outcome : Outcome)
  deriving DecidableEq

/-- The outcome that an action reports, if it is a report. -/
def Action.outcome? : Action → Option Outcome
  | .report outcome => some outcome
  | _ => none

/-- The outcomes that were reported, in order. -/
def reports (actions : List Action) : List Outcome := actions.filterMap Action.outcome?

@[simp] theorem reports_nil : reports [] = [] := rfl

@[simp] theorem reports_report (outcome : Outcome) (actions : List Action) :
    reports (.report outcome :: actions) = outcome :: reports actions := rfl

@[simp] theorem reports_append (actions more : List Action) :
    reports (actions ++ more) = reports actions ++ reports more := List.filterMap_append ..

/-- How a bus behaves: what it answers, given all that was done before the call. -/
structure Behaviour where
  write : List Action → UInt8 → Bytes → Bool → Except Fault Unit
  read : List Action → UInt8 → Bytes → Bool → Except Fault Unit × Bytes
  configure : List Action → Bus.Speed → Except Fault Unit

/-- Computations that write down what is done. -/
abbrev RecordM := StateM (List Action)

/-- Does something, with an answer that may depend on all that was done before. -/
def act {α : Type} (action : Action) (answer : List Action → α) : RecordM α :=
  modifyGet fun done => (answer done, done ++ [action])

@[simp] theorem run_act {α : Type} (action : Action) (answer : List Action → α)
    (done : List Action) :
    (act action answer).run done = pure (answer done, done ++ [action]) := rfl

/-- Surroundings with a bus of a given behaviour, in which everything is written down. -/
def Behaviour.wiring (bus : Behaviour) : Wiring RecordM where
  bus :=
    { write := fun address data stop =>
        act (.write address data stop) fun done => bus.write done address data stop
      read := fun address buffer stop =>
        act (.read address buffer stop) fun done => bus.read done address buffer stop
      configure := fun speed => act (.configure speed) fun done => bus.configure done speed }
  delay := ⟨fun unit amount => act (.delay unit amount) fun _ => ()⟩
  notify outcome := act (.report outcome) fun _ => ()

section Wiring

variable (bus : Behaviour)

@[simp] theorem wiring_write (address : UInt8) (data : Bytes) (stop : Bool) :
    bus.wiring.bus.write address data stop =
      act (.write address data stop) fun done => bus.write done address data stop := rfl

@[simp] theorem wiring_read (address : UInt8) (buffer : Bytes) (stop : Bool) :
    bus.wiring.bus.read address buffer stop =
      act (.read address buffer stop) fun done => bus.read done address buffer stop := rfl

@[simp] theorem wiring_configure (speed : Bus.Speed) :
    bus.wiring.bus.configure speed =
      act (.configure speed) fun done => bus.configure done speed := rfl

@[simp] theorem wiring_micros (amount : UInt32) :
    bus.wiring.delay.micros amount = act (.delay .micros amount) fun _ => () := rfl

end Wiring

/-- The record of one command. -/
structure Call where
  command : Command
  /-- The link before the command. -/
  before : Link
  /-- What the link did, in order. -/
  actions : List Action
  reply : Reply
  /-- The link after the command. -/
  after : Link

/-- What was done so far. -/
def recorded : StateT Link RecordM (List Action) := getThe (List Action)

@[simp] theorem run_recorded (link : Link) (done : List Action) :
    (recorded.run link).run done = pure ((done, link), done) := rfl

/-- Performs a command and writes its record. -/
def call (bus : Behaviour) (command : Command) : StateT Link RecordM Call := do
  let before ← get
  let start := (← recorded).length
  let reply ← perform bus.wiring command
  return { command, before, actions := (← recorded).drop start, reply, after := ← get }

/-- Performs commands one after the other. -/
def session (bus : Behaviour) (commands : List Command) : StateT Link RecordM (List Call) :=
  commands.mapM (call bus)

namespace Call

/-- The result of a transfer over the link: of a write or of a read. -/
def result? (call : Call) : Option (Except Error Unit) :=
  match call.command, call.reply with
  | .write _, .result result => some result
  | .read _, .filled result _ => some result
  | _, _ => none

/-- A write or a read over the link. -/
def IsTransfer (call : Call) : Prop :=
  (∃ data, call.command = .write data) ∨ ∃ buffer, call.command = .read buffer

/-- The token was asked for and granted. -/
def IsGrant (call : Call) : Prop := call.command = .acquire ∧ call.reply = .grant .granted

/-- A release or a read: the commands that end a hold. -/
def Frees (call : Call) : Prop := call.command = .release ∨ ∃ buffer, call.command = .read buffer

/-- The rules that a call keeps on a link with a configuration. -/
structure Disciplined (config : Config) (call : Call) : Prop where
  /-- A transfer has a result and makes one report, which says the same. -/
  transfer : call.IsTransfer → ∃ result, call.result? = some result ∧
    reports call.actions = [.ofResult result] ∧
      (Outcome.ofResult result = .success ↔ result = .ok ()) ∧
      ∀ e, result = .error e → Outcome.ofResult result = e.outcome
  /-- Nothing else reports. -/
  silent : ¬ call.IsTransfer → call.result? = none ∧ reports call.actions = []
  /-- A grant takes the token. -/
  grant : call.IsGrant → call.after.token.held = true
  /-- A release and a read free the token, also a read that was denied it. -/
  frees : call.Frees → call.after.token.held = false
  /-- Everything else, a write among it, leaves the token as it was. -/
  keeps : ¬ call.IsGrant → ¬ call.Frees → call.after.token.held = call.before.token.held
  /-- A transfer that is denied the token reports so and does nothing else. -/
  denied : call.IsTransfer → call.before.token.held = true →
    call.result? = some (.error .busy) ∧ call.actions = [.report .busy] ∧
      ∀ buffer, call.command = .read buffer → call.reply = .filled (.error .busy) buffer
  /-- A set-up programs the configured bitrate and does nothing else. -/
  programs : call.command = .setUp → ∃ speed : Bus.Speed,
    call.actions = [.configure speed] ∧ speed.hertz.toNat = config.bitrate.toNat * 1000

end Call

/-- Only a success is reported as one. -/
theorem ofResult_eq_success_iff (result : Except Error Unit) :
    Outcome.ofResult result = .success ↔ result = .ok () := by
  rcases result with (_ | _) | _ <;> simp [Outcome.ofResult, Error.outcome]

/-! ### A single call -/

section Transfers

variable (bus : Behaviour)

theorem run_deny (done : List Action) :
    (deny bus.wiring).run done = pure (.error .busy, done ++ [.report .busy]) := rfl

theorem run_report (result : Except Fault Unit) (done : List Action) :
    (report bus.wiring result).run done =
      pure (result.mapError .bus, done ++ [.report (.ofResult (result.mapError .bus))]) := by
  rw [report_eq]
  rfl

/-- The attempts of a write report nothing. -/
theorem run_writeFrom (config : Config) (data : Bytes) (attempt : UInt8) (done : List Action) :
    ∃ result actions, (writeFrom bus.wiring config data attempt).run done =
      pure (result, done ++ actions) ∧ reports actions = [] := by
  -- the recursion of `writeFrom`: the later attempts are made behind one write and one pause
  induction attempt using writeFrom.induct config generalizing done with
  | case1 attempt ih =>
    rw [writeFrom, Peer.write_eq]
    let sent : Action := .write config.peer.address data config.peer.stop
    cases hw : bus.write done config.peer.address data config.peer.stop with
    | ok => exact ⟨.ok (), [sent], by simp [hw, sent], rfl⟩
    | error fault =>
      by_cases hlt : attempt < config.attempts
      · obtain ⟨result, actions, hrun, hsilent⟩ :=
          ih hlt (done ++ [sent] ++ [.delay .micros config.retryMicros])
        refine ⟨result, [sent, .delay .micros config.retryMicros] ++ actions, ?_, ?_⟩
        · simpa [hw, hlt, sent] using hrun
        · simpa [reports, Action.outcome?, sent] using hsilent
      · exact ⟨.error fault, [sent], by simp [hw, hlt, sent], rfl⟩

/-- A write that has the token ends with one report, of its result. -/
theorem run_send (data : Bytes) {link : Link} (h : link.token.held = false)
    (done : List Action) :
    ∃ result actions, (send bus.wiring data link).run done = pure (result, done ++ actions) ∧
      reports actions = [.ofResult result] := by
  obtain ⟨sent, actions, hrun, hsilent⟩ := run_writeFrom bus link.config data 1 done
  refine ⟨sent.mapError .bus, actions ++ [.report (.ofResult (sent.mapError .bus))], ?_, ?_⟩
  · simp [send, h, hrun, run_report]
  · rw [reports_append, hsilent]
    rfl

/-- A read that has the token ends with one report, of its result. -/
theorem run_receive (buffer : Bytes) {link : Link} (h : link.token.held = false)
    (done : List Action) :
    ∃ result filled actions,
      (receive bus.wiring buffer link).run done = pure ((result, filled), done ++ actions) ∧
        reports actions = [.ofResult result] := by
  let asked : Action := .read link.config.peer.address buffer link.config.peer.stop
  let answer := bus.read done link.config.peer.address buffer link.config.peer.stop
  refine ⟨answer.1.mapError .bus, answer.2,
    [asked, .report (.ofResult (answer.1.mapError .bus))], ?_, rfl⟩
  simp [receive, h, Peer.read_eq, run_report, asked, answer]

/-- The peer can be used directly without a report. -/
theorem run_direct (peer : Peer) (command : Peer.Command) (done : List Action) :
    ∃ result bytes actions,
      (peer.perform bus.wiring.bus command).run done = pure ((result, bytes), done ++ actions) ∧
        reports actions = [] := by
  cases command with
  | write data => exact ⟨_, _, [.write peer.address data peer.stop], rfl, rfl⟩
  | read buffer => exact ⟨_, _, [.read peer.address buffer peer.stop], rfl, rfl⟩
  | transfer t =>
    obtain ⟨address, stop, body⟩ := t
    cases body with
    | send data => exact ⟨_, _, [.write address data stop], rfl, rfl⟩
    | receive buffer => exact ⟨_, _, [.read address buffer stop], rfl, rfl⟩
  | configure speed => exact ⟨_, _, [.configure speed], rfl, rfl⟩

end Transfers

section Calls

attribute [local simp] Call.IsTransfer Call.IsGrant Call.Frees Call.result?

/-- A transfer that is denied the token reports that it is held, and no more. -/
theorem run_denied (bus : Behaviour) (command : Command) {link : Link}
    (h : link.token.held = true) (done : List Action)
    (hc : (∃ data, command = .write data) ∨ ∃ buffer, command = .read buffer) :
    ∃ reply after,
      ((perform bus.wiring command).run link).run done =
        pure ((reply, after), done ++ [.report .busy]) ∧
        after.config = link.config ∧
        Call.Disciplined link.config
          { command, before := link, actions := [.report .busy], reply, after } := by
  rcases hc with ⟨data, rfl⟩ | ⟨buffer, rfl⟩
  · refine ⟨.result (.error .busy), link, ?_, rfl, ?_⟩
    · simp [perform, run_write, send, h, run_deny]
    · constructor <;> simp [Outcome.ofResult, Error.outcome]
  · refine ⟨.filled (.error .busy) buffer, link.freed, ?_, rfl, ?_⟩
    · simp [perform, run_read, receive, h, run_deny]
    · constructor <;> simp [Outcome.ofResult, Error.outcome]

/-- Performing a command, with its record. -/
theorem run_perform (bus : Behaviour) (command : Command) (link : Link) (done : List Action) :
    ∃ actions reply after,
      ((perform bus.wiring command).run link).run done =
        pure ((reply, after), done ++ actions) ∧
        after.config = link.config ∧
        Call.Disciplined link.config { command, before := link, actions, reply, after } := by
  cases command with
  | setUp =>
    let speed : Bus.Speed := .ofKilohertz link.config.bitrate
    refine ⟨[.configure speed], .result ((bus.configure done speed).mapError .bus), link, ?_,
      rfl, ?_⟩
    · simp [perform, setUp, speed]
    · constructor <;> simp [reports, Action.outcome?, speed, Bus.Speed.hertz_ofKilohertz]
  | tearDown =>
    refine ⟨[], .result (.ok ()), link, by simp [perform, tearDown], rfl, ?_⟩
    constructor <;> simp
  | requestBitrate khz =>
    refine ⟨[], .result (.ok ()), { link with requestedBitrate := khz }, ?_, rfl, ?_⟩
    · simp [perform, requestBitrate]
    · constructor <;> simp
  | acquire =>
    refine ⟨[], .grant link.token.acquire.1, { link with token := link.token.acquire.2 }, ?_,
      rfl, ?_⟩
    · simp [perform, run_acquire]
    · constructor <;> simp [Token.acquire_granted_iff]
  | release =>
    refine ⟨[], .nothing, link.freed, by simp [perform, release, freed], rfl, ?_⟩
    constructor <;> simp
  | write data =>
    -- the token is asked for first, and everything else depends on the answer
    cases h : link.token.held with
    | true => exact ⟨_, run_denied bus _ h done (.inl ⟨data, rfl⟩)⟩
    | false =>
      obtain ⟨result, actions, hrun, hreport⟩ := run_send bus data h done
      refine ⟨actions, .result result, link, ?_, rfl, ?_⟩
      · simp [perform, run_write, hrun]
      · constructor <;> simp [hreport, h, ofResult_eq_success_iff]
        rintro e rfl
        rfl
  | read buffer =>
    cases h : link.token.held with
    | true => exact ⟨_, run_denied bus _ h done (.inr ⟨buffer, rfl⟩)⟩
    | false =>
      obtain ⟨result, filled, actions, hrun, hreport⟩ := run_receive bus buffer h done
      refine ⟨actions, .filled result filled, link.freed, ?_, rfl, ?_⟩
      · simp [perform, run_read, hrun]
      · constructor <;> simp [hreport, h, ofResult_eq_success_iff]
        rintro e rfl
        rfl
  | direct command =>
    obtain ⟨result, bytes, actions, hrun, hsilent⟩ :=
      run_direct bus link.config.peer command done
    refine ⟨actions, .direct result bytes, link, by simp [perform, hrun], rfl, ?_⟩
    constructor <;> simp [hsilent]

end Calls

/-- Every call is disciplined. -/
theorem run_call (bus : Behaviour) (command : Command) (link : Link) (done : List Action) :
    ∃ c : Call,
      ((call bus command).run link).run done = pure ((c, c.after), done ++ c.actions) ∧
        c.command = command ∧ c.before = link ∧ c.after.config = link.config ∧
        c.Disciplined link.config := by
  obtain ⟨actions, reply, after, hrun, hconfig, hc⟩ := run_perform bus command link done
  refine ⟨⟨command, link, actions, reply, after⟩, ?_, rfl, rfl, hconfig, hc⟩
  simp [call, hrun]

/-! ### Whole sessions -/

/-- Calls that follow one another on a link that starts with a free token, with the link they lead
to and all that was done. -/
inductive Follow (config : Config) : List Call → Link → List Action → Prop
  | start : Follow config [] { config } []
  | next {calls : List Call} {link : Link} {actions : List Action} {c : Call} :
      Follow config calls link actions → c.before = link → c.after.config = config →
      c.Disciplined config → Follow config (calls ++ [c]) c.after (actions ++ c.actions)

/-- A session is made of calls that follow one another, one for each command. -/
theorem run_session (bus : Behaviour) (config : Config) (commands : List Command) :
    ∃ calls link actions,
      ((session bus commands).run { config }).run [] = pure ((calls, link), actions) ∧
        calls.map Call.command = commands ∧ link.config = config ∧
        Follow config calls link actions := by
  induction commands using List.reverseRecOn with
  | nil => exact ⟨[], { config }, [], rfl, rfl, rfl, .start⟩
  | append_singleton commands command ih =>
    obtain ⟨calls, link, actions, hrun, hcommands, hconfig, hfollow⟩ := ih
    obtain ⟨c, hc, hcommand, hbefore, hafter, hd⟩ := run_call bus command link actions
    rw [hconfig] at hafter hd
    refine ⟨calls ++ [c], c.after, actions ++ c.actions, ?_, ?_, hafter,
      .next hfollow hbefore hafter hd⟩
    · rw [session, List.mapM_append, StateT.run_bind, StateT.run_bind]
      rw [session] at hrun
      rw [hrun]
      simp [hc]
    · rw [List.map_append, hcommands, List.map_singleton, hcommand]

/-- The last grant was followed neither by a release nor by a read. -/
def GrantStands (calls : List Call) : Prop :=
  ∃ earlier c later, calls = earlier ++ c :: later ∧ c.IsGrant ∧
    (∀ d ∈ later, ¬ d.IsGrant) ∧ ∀ d ∈ later, ¬ d.Frees

theorem not_grantStands_nil : ¬ GrantStands [] := by
  rintro ⟨earlier, c, later, h, -⟩
  simp at h

theorem grantStands_iff_since (calls : List Call) :
    GrantStands calls ↔ Since Call.IsGrant (fun c => ¬ c.IsGrant ∧ ¬ c.Frees) calls := by
  simp only [GrantStands, Since, imp_and, forall_and]

/-- What one more call does to the last grant. -/
theorem grantStands_concat_iff (calls : List Call) (c : Call) :
    GrantStands (calls ++ [c]) ↔ c.IsGrant ∨ GrantStands calls ∧ ¬ c.IsGrant ∧ ¬ c.Frees := by
  rw [grantStands_iff_since, grantStands_iff_since]
  exact since_concat_iff ..

namespace Follow

variable {config : Config} {calls : List Call} {link : Link} {actions : List Action}

theorem disciplined (h : Follow config calls link actions) :
    ∀ c ∈ calls, c.Disciplined config := by
  induction h with
  | start => simp
  | next _ _ _ hd ih => simpa [or_imp, forall_and] using ⟨ih, hd⟩

/-- The reports of a session are those of its transfers, in order. -/
theorem reports_eq (h : Follow config calls link actions) :
    reports actions = calls.filterMap fun c => c.result?.map Outcome.ofResult := by
  induction h with
  | start => rfl
  | @next calls link actions c _ _ _ hd ih =>
    rw [reports_append, ih, List.filterMap_append]
    congr 1
    by_cases ht : c.IsTransfer
    · obtain ⟨result, hresult, hreport, -⟩ := hd.transfer ht
      simp [hreport, hresult]
    · obtain ⟨hresult, hsilent⟩ := hd.silent ht
      simp [hresult, hsilent]

/-- The token is held exactly if the last grant stands. -/
theorem held_iff (h : Follow config calls link actions) :
    link.token.held = true ↔ GrantStands calls := by
  induction h with
  | start => simp [not_grantStands_nil]
  | @next calls link actions c _ hbefore _ hd ih =>
    rw [grantStands_concat_iff, ← ih, ← hbefore]
    by_cases hg : c.IsGrant
    · simp [hg, hd.grant hg]
    · by_cases hf : c.Frees
      · simp [hg, hf, hd.frees hf]
      · simp [hg, hf, hd.keeps hg hf]

/-- So it is before each call. -/
theorem before_held_iff (h : Follow config calls link actions) :
    ∀ earlier c later, calls = earlier ++ c :: later →
      (c.before.token.held = true ↔ GrantStands earlier) := by
  induction h with
  | start => simp
  | @next calls link actions c hfollow hbefore _ _ ih =>
    rw [forall_moment_concat_iff (P := fun earlier c =>
      c.before.token.held = true ↔ GrantStands earlier)]
    refine ⟨ih, ?_⟩
    rw [hbefore]
    exact hfollow.held_iff

end Follow

/-- **The law of every session.**  Whatever the configuration, the bus and the commands: each
command is carried out in its turn and keeps the rules of `Call.Disciplined`; the reports are
those of the writes and reads, in order; and at any moment, before each call and at the end, the
token is held exactly if the last grant was followed neither by a release nor by a read. -/
theorem session_disciplined (bus : Behaviour) (config : Config) (commands : List Command) :
    ∃ calls link actions,
      ((session bus commands).run { config }).run [] = pure ((calls, link), actions) ∧
        calls.map Call.command = commands ∧
        (∀ c ∈ calls, c.Disciplined config) ∧
        (reports actions = calls.filterMap fun c => c.result?.map Outcome.ofResult) ∧
        (∀ earlier c later, calls = earlier ++ c :: later →
          (c.before.token.held = true ↔ GrantStands earlier)) ∧
        (link.token.held = true ↔ GrantStands calls) := by
  obtain ⟨calls, link, actions, hrun, hcommands, -, hfollow⟩ := run_session bus config commands
  exact ⟨calls, link, actions, hrun, hcommands, hfollow.disciplined, hfollow.reports_eq,
    hfollow.before_held_iff, hfollow.held_iff⟩

end ElementHost.Link
