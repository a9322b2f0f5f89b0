import ElementHost.Bus.Transaction
import ElementHost.Proofs.Link.Session

/-!
# Links over transaction peripherals

A link is wired to a transaction peripheral by way of an adapter, which reduces the reports of the
peripheral to faults.  A bus master of the ordinary kind has errors of its own, and they are reduced
above it.  A link cannot tell the one from the other, and it cannot tell either whether the adapter
is asked for stop conditions.

* `Deed`, what a link did when its bus offers transactions, and `Action.deed?`, what that makes of
  an action on an ordinary bus;
* `Peripheral`, any behaviour of a transaction peripheral, with `Peripheral.wiring` and
  `Peripheral.session`, the link over the adapter;
* `Master`, any behaviour of a bus master with errors of its own, and `Peripheral.master`, which
  makes each transfer by itself;
* `Simulates`, a computation over the adapter does the same as one over an ordinary bus;
* `session_adapted`, the same sessions on both sides, whatever the stop conditions.
-/

namespace ElementHost.Link

variable {α β γ : Type}

/-! ### Both sides -/

/-- What a link did to its surroundings, over a bus of transactions. -/
inductive Deed
  | transact (address : UInt8) (operations : List Operation)
  | delay (unit : TimeUnit) (amount : UInt32)
  | report (outcome : Outcome)
  deriving DecidableEq

/-- What becomes of an action over a bus of transactions: a transfer is a transaction that holds one
operation with the same address and bytes, and configuring is nothing. -/
def Action.deed? : Action → Option Deed
  | .write address data _ => some (.transact address [.write data])
  | .read address buffer _ => some (.transact address [.read buffer])
  | .configure _ => none
  | .delay unit amount => some (.delay unit amount)
  | .report outcome => some (.report outcome)

/-- What becomes of all that was done. -/
def deeds (actions : List Action) : List Deed := actions.filterMap Action.deed?

@[simp] theorem deeds_append (actions more : List Action) :
    deeds (actions ++ more) = deeds actions ++ deeds more := List.filterMap_append ..

/-- How a transaction peripheral behaves: what it answers, and what it leaves in the buffers, given
all that was done before the call. -/
structure Peripheral where
  transact : List Deed → UInt8 → List Operation → Except Report Unit × List Operation

/-- How a bus master behaves that has errors of its own. -/
structure Master (ε : Type) where
  write : List Action → UInt8 → Bytes → Bool → Except ε Unit
  read : List Action → UInt8 → Bytes → Bool → Except ε Unit × Bytes
  configure : List Action → Bus.Speed → Except ε Unit

/-- A master as the link sees it, with its errors reduced to faults. -/
def Master.reduced {ε : Type} (master : Master ε) (reduce : ε → Fault) : Behaviour where
  write done address data stop := (master.write done address data stop).mapError reduce
  read done address buffer stop :=
    let (result, buffer) := master.read done address buffer stop
    (result.mapError reduce, buffer)
  configure done speed := (master.configure done speed).mapError reduce

/-- The master that makes each transfer as the peripheral does, with the reports of the peripheral
for errors.  It does nothing when it is configured. -/
def Peripheral.master (p : Peripheral) : Master Report where
  write done address data _ := (p.transact (deeds done) address [.write data]).1
  read done address buffer _ :=
    let (result, operations) := p.transact (deeds done) address [.read buffer]
    (result, (operations.headD (.read buffer)).bytes)
  configure _ _ := .ok ()

/-- The bus that a link sees over such a master. -/
abbrev Peripheral.plain (p : Peripheral) : Behaviour := p.master.reduced Report.fault

/-- Computations that write down what is done over a bus of transactions. -/
abbrev DeedM := StateM (List Deed)

/-- Surroundings with the adapter of a peripheral, in which everything is written down. -/
def Peripheral.wiring (p : Peripheral) : Wiring DeedM where
  bus := TransactionBus.bus ⟨fun address operations =>
    modifyGet fun done =>
      (p.transact done address operations, done ++ [.transact address operations])⟩
  delay := ⟨fun unit amount => modify (· ++ [.delay unit amount])⟩
  notify outcome := modify (· ++ [.report outcome])

/-- What there is to see of a command. -/
structure Sight where
  reply : Reply
  /-- The token after the command. -/
  token : Token
  /-- The bitrate that was last asked for. -/
  requestedBitrate : UInt16
  /-- What was done, in order. -/
  deeds : List Deed

/-- What there is to see of a call. -/
def Call.sight (call : Call) : Sight :=
  { reply := call.reply, token := call.after.token
    requestedBitrate := call.after.requestedBitrate, deeds := deeds call.actions }

/-- What was done so far. -/
def recordedDeeds : StateT Link DeedM (List Deed) := getThe (List Deed)

@[simp] theorem run_recordedDeeds (link : Link) (history : List Deed) :
    (recordedDeeds.run link).run history = pure ((history, link), history) := rfl

/-- Performs a command over the adapter. -/
def Peripheral.call (p : Peripheral) (command : Command) : StateT Link DeedM Sight := do
  let start := (← recordedDeeds).length
  let reply ← perform p.wiring command
  let link ← get
  return { reply, token := link.token, requestedBitrate := link.requestedBitrate
           deeds := (← recordedDeeds).drop start }

/-- Performs commands over the adapter, one after the other. -/
def Peripheral.session (p : Peripheral) (commands : List Command) :
    StateT Link DeedM (List Sight) :=
  commands.mapM p.call

/-! ### Stop conditions -/

/-- The same link, with another choice of stop conditions. -/
def withStop (stop : Bool) (link : Link) : Link := { link with config.stop := stop }

@[simp] theorem withStop_token (stop : Bool) (link : Link) :
    (link.withStop stop).token = link.token := rfl

@[simp] theorem withStop_requestedBitrate (stop : Bool) (link : Link) :
    (link.withStop stop).requestedBitrate = link.requestedBitrate := rfl

/-- The same command: a transfer that is made past the link has a stop condition of its own. -/
def Command.withStop (stop : Bool) : Command → Command
  | .direct (.transfer t) => .direct (.transfer { t with stop })
  | command => command

/-- The adapter does not look at the stop condition of a command. -/
theorem call_withStop (p : Peripheral) (stop : Bool) (command : Command) :
    p.call (command.withStop stop) = p.call command := by
  cases command with
  | direct command =>
    cases command with
    | transfer t =>
      obtain ⟨address, given, body⟩ := t
      cases body <;> rfl
    | write | read | configure => rfl
  | setUp | tearDown | requestBitrate | acquire | release | write | read => rfl

theorem session_withStop (p : Peripheral) (stop : Bool) (commands : List Command) :
    p.session (commands.map (Command.withStop stop)) = p.session commands := by
  have hcall : p.call ∘ Command.withStop stop = p.call := funext (call_withStop p stop)
  rw [Peripheral.session, Peripheral.session, List.mapM_map, hcall]

/-! ### The simulation -/

/-- From what a history becomes over a bus of transactions, `y` has the same result as `x` from the
history, and leads to what the longer history becomes. -/
def Simulates (x : RecordM α) (y : DeedM α) : Prop :=
  ∀ done, y.run (deeds done) = pure ((x.run done).1, deeds (x.run done).2)

namespace Simulates

theorem pure (a : α) : Simulates (pure a) (pure a) := fun _ => rfl

/-- Results that correspond may be followed by computations that go on from them. -/
theorem bind_map {r : α → γ} {x : RecordM α} {y : DeedM γ} {f : α → RecordM β} {g : γ → DeedM β}
    (h : Simulates (r <$> x) y) (hfg : ∀ a, Simulates (f a) (g (r a))) :
    Simulates (x >>= f) (y >>= g) := by
  intro done
  rw [StateT.run_bind, StateT.run_bind, h done]
  exact hfg _ _

theorem bind {x : RecordM α} {y : DeedM α} {f : α → RecordM β} {g : α → DeedM β}
    (h : Simulates x y) (hfg : ∀ a, Simulates (f a) (g a)) : Simulates (x >>= f) (y >>= g) :=
  bind_map (r := id) (by rwa [id_map]) hfg

theorem map {x : RecordM α} {y : DeedM α} (f : α → β) (h : Simulates x y) :
    Simulates (f <$> x) (f <$> y) := by
  intro done
  rw [StateT.run_map, StateT.run_map, h done]
  rfl

theorem act {action : Action} {answer : List Action → α} {y : DeedM α}
    (h : ∀ done, y.run (deeds done) = Pure.pure (answer done, deeds done ++ deeds [action])) :
    Simulates (act action answer) y := by
  intro done
  rw [h done, run_act, ← deeds_append]
  rfl

end Simulates

section Surroundings

variable (p : Peripheral)

/-- A write is the same transfer on both sides, with any stop conditions. -/
theorem simulates_write (address : UInt8) (data : Bytes) (s t : Bool) :
    Simulates (p.plain.wiring.bus.write address data s) (p.wiring.bus.write address data t) :=
  .act fun _ => rfl

/-- So is a read. -/
theorem simulates_read (address : UInt8) (buffer : Bytes) (s t : Bool) :
    Simulates (p.plain.wiring.bus.read address buffer s) (p.wiring.bus.read address buffer t) :=
  .act fun _ => rfl

/-- Configuring leaves no trace. -/
theorem simulates_configure (speed : Bus.Speed) :
    Simulates (p.plain.wiring.bus.configure speed) (p.wiring.bus.configure speed) := by
  refine .act fun done => ?_
  rw [show deeds [.configure speed] = [] from rfl, List.append_nil]
  rfl

theorem simulates_micros (amount : UInt32) :
    Simulates (p.plain.wiring.delay.micros amount) (p.wiring.delay.micros amount) :=
  .act fun _ => rfl

theorem simulates_notify (outcome : Outcome) :
    Simulates (p.plain.wiring.notify outcome) (p.wiring.notify outcome) :=
  .act fun _ => rfl

theorem simulates_report (result : Except Fault Unit) :
    Simulates (report p.plain.wiring result) (report p.wiring result) := by
  rw [report_eq, report_eq]
  exact .bind (simulates_notify p _) fun _ => .pure _

theorem simulates_deny : Simulates (deny p.plain.wiring) (deny p.wiring) :=
  .bind (simulates_notify p _) fun _ => .pure _

/-- A transfer that is made past the link. -/
theorem simulates_transfer (t : Transfer) :
    Simulates (t.run p.plain.wiring.bus) (t.run p.wiring.bus) := by
  obtain ⟨address, stop, body⟩ := t
  cases body with
  | send data => exact .bind (simulates_write p _ _ _ _) fun _ => .pure _
  | receive buffer => exact simulates_read p _ _ _ _

end Surroundings

section Transfers

variable (p : Peripheral) (stop : Bool) (config : Config)

/-- The attempts of a write: as many on both sides, with the same pauses. -/
theorem simulates_writeFrom (data : Bytes) (attempt : UInt8) :
    Simulates (writeFrom p.plain.wiring config data attempt)
      (writeFrom p.wiring { config with stop } data attempt) := by
  induction attempt using writeFrom.induct config with
  | case1 attempt ih =>
    rw [writeFrom.eq_def p.plain.wiring, writeFrom.eq_def p.wiring, Peer.write_eq, Peer.write_eq]
    refine .bind (simulates_write p _ _ _ _) ?_
    rintro (fault | _)
    · have hattempts : ({ config with stop } : Config).attempts = config.attempts := rfl
      by_cases hlt : attempt < config.attempts
      · simp only [hattempts, hlt, ↓reduceDIte]
        exact .bind (simulates_micros p _) fun _ => ih hlt
      · simp only [hattempts, hlt, ↓reduceDIte]
        exact .pure _
    · exact .pure _

variable (link : Link)

theorem simulates_send (data : Bytes) :
    Simulates (send p.plain.wiring data link) (send p.wiring data (link.withStop stop)) := by
  unfold send
  by_cases hheld : link.token.held
  · simp only [withStop_token, hheld, ↓reduceIte]
    exact simulates_deny p
  · simp only [withStop_token, hheld, Bool.false_eq_true, ↓reduceIte]
    exact .bind (simulates_writeFrom p stop link.config data 1) fun _ => simulates_report p _

theorem simulates_receive (buffer : Bytes) :
    Simulates (receive p.plain.wiring buffer link)
      (receive p.wiring buffer (link.withStop stop)) := by
  unfold receive
  by_cases hheld : link.token.held
  · simp only [withStop_token, hheld, ↓reduceIte]
    exact .bind (simulates_deny p) fun _ => .pure _
  · simp only [withStop_token, hheld, Bool.false_eq_true, ↓reduceIte]
    refine .bind (simulates_read p _ _ _ _) fun filled => ?_
    exact .bind (simulates_report p _) fun _ => .pure _

theorem simulates_direct (command : Peer.Command) :
    Simulates (link.config.peer.perform p.plain.wiring.bus command)
      ((link.withStop stop).config.peer.perform p.wiring.bus command) := by
  cases command with
  | write data =>
    rw [Peer.perform, Peer.perform, Peer.write_eq, Peer.write_eq]
    exact .bind (simulates_write p _ _ _ _) fun _ => .pure _
  | read buffer => exact simulates_read p _ _ _ _
  | transfer t => exact simulates_transfer p t
  | configure speed => exact .bind (simulates_configure p speed) fun _ => .pure _

end Transfers

/-- Every command has the same reply on both sides, and leads to the same link. -/
theorem simulates_perform (p : Peripheral) (stop : Bool) (command : Command) (link : Link) :
    Simulates (Prod.map id (withStop stop) <$> (perform p.plain.wiring command).run link)
      ((perform p.wiring command).run (link.withStop stop)) := by
  cases command with
  | setUp =>
    exact .map (fun result => (Reply.result (result.mapError .bus), link.withStop stop))
      (simulates_configure p (.ofKilohertz link.config.bitrate))
  | tearDown | requestBitrate | acquire | release => exact .pure _
  | write data =>
    simp only [perform, StateT.run_bind, run_write, bind_map_left, map_bind]
    exact .bind (simulates_send p stop link data) fun _ => .pure _
  | read buffer =>
    simp only [perform, StateT.run_bind, run_read, bind_map_left, map_bind]
    exact .bind (simulates_receive p stop link buffer) fun _ => .pure _
  | direct command =>
    simp only [perform, StateT.run_bind, StateT.run_get, StateT.run_lift, pure_bind, bind_assoc,
      map_bind]
    exact .bind (simulates_direct p stop link command) fun _ => .pure _

/-! ### Sessions -/

/-- What there is to see of a call is the same on both sides. -/
theorem simulates_call (p : Peripheral) (stop : Bool) (command : Command) (link : Link) :
    Simulates (Prod.map Call.sight (withStop stop) <$> (call p.plain command).run link)
      ((p.call command).run (link.withStop stop)) := by
  intro done
  obtain ⟨actions, reply, after, hrun, -⟩ := run_perform p.plain command link done
  have hperform : ((perform p.wiring command).run (link.withStop stop)).run (deeds done) =
      pure ((reply, after.withStop stop), deeds (done ++ actions)) := by
    have hsimulated := simulates_perform p stop command link done
    rw [StateT.run_map, hrun] at hsimulated
    exact hsimulated
  let called : Call := { command, before := link, actions, reply, after }
  have hcall : ((call p.plain command).run link).run done =
      pure ((called, after), done ++ actions) := by
    simp [call, hrun, called]
  rw [StateT.run_map, hcall]
  show _ = pure ((called.sight, after.withStop stop), deeds (done ++ actions))
  simp [Peripheral.call, hperform, Call.sight, called]

/-- So it is in a whole session. -/
theorem simulates_session (p : Peripheral) (stop : Bool) (commands : List Command) (link : Link) :
    Simulates
      (Prod.map (List.map Call.sight) (withStop stop) <$> (session p.plain commands).run link)
      ((p.session commands).run (link.withStop stop)) := by
  induction commands generalizing link with
  | nil => exact .pure _
  | cons command commands ih =>
    simp only [session, Peripheral.session, List.mapM_cons, StateT.run_bind, map_bind]
    refine .bind_map (simulates_call p stop command link) fun called => ?_
    exact .bind_map (ih called.2) fun _ => .pure _

/-- **A link cannot tell the adapter of a transaction peripheral from an ordinary bus master.**
However the peripheral behaves, whatever the configuration and the commands, a session over the
adapter shows the same, reply by reply and deed by deed, as the session over the master that makes
the same transfers and has its errors reduced above it, where each transfer is a transaction with
one operation of the same address and bytes.  And it shows the same with any choice of stop
conditions. -/
theorem session_adapted (p : Peripheral) (config : Config) (commands : List Command) :
    ∃ calls link actions,
      ((session (p.master.reduced Report.fault) commands).run { config }).run [] =
          pure ((calls, link), actions) ∧
        calls.map Call.command = commands ∧
        ((p.session commands).run { config }).run [] =
          pure ((calls.map Call.sight, link), deeds actions) ∧
        ∀ stop, ((p.session (commands.map (Command.withStop stop))).run
            { config := { config with stop } }).run [] =
          pure ((calls.map Call.sight, link.withStop stop), deeds actions) := by
  obtain ⟨calls, link, actions, hrun, hcommands, hconfig, -⟩ := run_session p.plain config commands
  have hsession (stop : Bool) :
      ((p.session commands).run { config := { config with stop } }).run [] =
        pure ((calls.map Call.sight, link.withStop stop), deeds actions) := by
    have hsimulated := simulates_session p stop commands { config } []
    rw [StateT.run_map, hrun] at hsimulated
    exact hsimulated
  refine ⟨calls, link, actions, hrun, hcommands, ?_, fun stop => ?_⟩
  · have hsame : link.withStop config.stop = link := by
      rw [withStop, ← hconfig]
    rw [← hsame]
    exact hsession config.stop
  · rw [session_withStop]
    exact hsession stop

end ElementHost.Link
