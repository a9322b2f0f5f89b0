import ElementHost.Clock.Delay
import ElementHost.Link.Config
import ElementHost.Link.Token

/-!
# The link to the secure element

A link serialises the use of the bus by its token, retries writes a bounded number of times, and
reports the outcome of every transfer to the layer above exactly once.  What the call returns says
the same as the report.

* `Link`, the state of a link, and `Link.Wiring m`, the bus, the delay and the receiver of reports
  it is wired to;
* `Link.Outcome`, the report, and `Link.Error`, the reason of a refusal or failure;
* `Link.setUp`, `Link.tearDown`, `Link.requestBitrate`, `Link.acquire`, `Link.release`;
* `Link.write` and `Link.read`, the transfers.

A write gives its token back before it reports, a read after.  A read that is denied the token
frees it all the same, so a read also ends a hold that somebody else took.
-/

namespace ElementHost

namespace Link

/-- What the layer above is told about a transfer. -/
inductive Outcome
  /-- The transfer was completed. -/
  | success
  /-- The transfer failed on the bus. -/
  | failure
  /-- The token was held, and nothing was sent. -/
  | busy
  deriving DecidableEq, Repr, Inhabited

/-- Why an operation of a link did not succeed. -/
inductive Error
  /-- The bus failed. -/
  | bus (fault : Fault)
  /-- The token was held. -/
  | busy
  deriving DecidableEq, Repr

/-- The outcome that stands for an error. -/
def Error.outcome : Error → Outcome
  | .bus _ => .failure
  | .busy => .busy

/-- What a link is wired to. -/
structure Wiring (m : Type → Type) where
  bus : Bus m
  /-- Paces the attempts of a write. -/
  delay : Delay m
  /-- Receives the outcome of every transfer. -/
  notify : Outcome → m Unit

end Link

/-- The state of a link. -/
structure Link where
  config : Link.Config := {}
  token : Token := {}
  /-- The bitrate the layer above last asked for, in kilohertz. -/
  requestedBitrate : UInt16 := config.bitrate
  deriving DecidableEq, Repr, Inhabited

namespace Link

variable {m : Type → Type} [Monad m]

/-- Programs the bus with the configured bitrate, whatever was requested in between. -/
def setUp (wiring : Wiring m) : StateT Link m (Except Error Unit) := do
  let link ← get
  let result ← wiring.bus.configure (.ofKilohertz link.config.bitrate)
  return result.mapError .bus

/-- Nothing has to be undone: the next set-up programs the bus again. -/
def tearDown : StateT Link m (Except Error Unit) := return .ok ()

/-- Records the bitrate the layer above would like.  The bus keeps the configured one. -/
def requestBitrate (khz : UInt16) : StateT Link m (Except Error Unit) := do
  modify fun link => { link with requestedBitrate := khz }
  return .ok ()

/-- Asks for the token. -/
def acquire : StateT Link m Grant :=
  modifyGet fun link => (link.token.acquire.1, { link with token := link.token.acquire.2 })

/-- Gives the token up. -/
def release : StateT Link m Unit :=
  modify fun link => { link with token := link.token.release }

/-- Counting one attempt further does not wrap while an attempt is left. -/
theorem toNat_succ_of_lt {attempt last : UInt8} (h : attempt < last) :
    (attempt + 1).toNat = attempt.toNat + 1 := by
  have hl := last.toNat_lt
  have h' : attempt.toNat < last.toNat := h
  rw [UInt8.toNat_add, UInt8.toNat_one]
  omega

/-- Makes attempt number `attempt` of a write, and the later ones as long as they fail and are
allowed, with one pause between two attempts.  The fault of the last attempt is the result. -/
def writeFrom (wiring : Wiring m) (config : Config) (data : Bytes) (attempt : UInt8) :
    m (Except Fault Unit) := do
  match ← config.peer.write wiring.bus data with
  | .ok () => return .ok ()
  | .error fault =>
    if _h : attempt < config.attempts then
      wiring.delay.micros config.retryMicros
      writeFrom wiring config data (attempt + 1)
    else
      return .error fault
termination_by config.attempts.toNat - attempt.toNat
decreasing_by
  have h : attempt.toNat < config.attempts.toNat := _h
  rw [toNat_succ_of_lt _h]
  omega

/-- Reports the result of a transfer to the layer above and returns it. -/
def report (wiring : Wiring m) (result : Except Fault Unit) : m (Except Error Unit) := do
  match result with
  | .ok () =>
    wiring.notify .success
    return .ok ()
  | .error fault =>
    wiring.notify .failure
    return .error (.bus fault)

/-- Reports that the token was held. -/
def deny (wiring : Wiring m) : m (Except Error Unit) := do
  wiring.notify .busy
  return .error .busy

/-- Sends `data` to the peer, in as many attempts as the configuration allows. -/
def write (wiring : Wiring m) (data : Bytes) : StateT Link m (Except Error Unit) := do
  match ← acquire with
  | .denied => StateT.lift (deny wiring)
  | .granted =>
    let result ← StateT.lift (writeFrom wiring (← get).config data 1)
    release
    StateT.lift (report wiring result)

/-- Fills `buffer` from the peer in a single attempt.  A denied read leaves the buffer as it was. -/
def read (wiring : Wiring m) (buffer : Bytes) : StateT Link m (Except Error Unit × Bytes) := do
  match ← acquire with
  | .denied =>
    let result ← StateT.lift (deny wiring)
    release
    return (result, buffer)
  | .granted =>
    let (result, buffer) ← StateT.lift ((← get).config.peer.read wiring.bus buffer)
    let result ← StateT.lift (report wiring result)
    release
    return (result, buffer)

end Link

end ElementHost
