import ElementHost.Link.Basic

/-!
# Everything a link can be asked to do

The operations of a link as data, so that a whole use of a link is a list of commands.  Next to the
operations of the link itself there is the direct way to its peer, past the token.

* `Peer.Command` and `Peer.perform`;
* `Link.Command`, `Link.Reply` and `Link.perform`.
-/

namespace ElementHost

/-- Something to do with a peer directly. -/
inductive Peer.Command
  | write (data : Bytes)
  | read (buffer : Bytes)
  /-- A transfer with an address and a stop condition of its own. -/
  | transfer (t : Transfer)
  | configure (speed : Bus.Speed)
  deriving DecidableEq, Repr

/-- Performs a command on a peer.  The bytes are those of the buffer after a read, and those of the
transfer after a transfer. -/
def Peer.perform {m : Type → Type} [Monad m] (peer : Peer) (bus : Bus m) :
    Peer.Command → m (Except Fault Unit × Bytes)
  | .write data => do return (← peer.write bus data, data)
  | .read buffer => peer.read bus buffer
  | .transfer t => t.run bus
  | .configure speed => do return (← bus.configure speed, [])

namespace Link

/-- Something to do with a link. -/
inductive Command
  | setUp
  | tearDown
  | requestBitrate (khz : UInt16)
  | acquire
  | release
  | write (data : Bytes)
  | read (buffer : Bytes)
  /-- Uses the peer past the token. -/
  | direct (command : Peer.Command)
  deriving DecidableEq, Repr

/-- What a link answers to a command. -/
inductive Reply
  | nothing
  | result (result : Except Error Unit)
  | grant (grant : Grant)
  /-- The result of a read, and the buffer afterwards. -/
  | filled (result : Except Error Unit) (buffer : Bytes)
  /-- The result of a direct use of the peer, and its bytes afterwards. -/
  | direct (result : Except Fault Unit) (bytes : Bytes)

/-- Performs a command. -/
def perform {m : Type → Type} [Monad m] (wiring : Wiring m) : Command → StateT Link m Reply
  | .setUp => return .result (← setUp wiring)
  | .tearDown => return .result (← tearDown)
  | .requestBitrate khz => return .result (← requestBitrate khz)
  | .acquire => return .grant (← acquire)
  | .release => do
    release
    return .nothing
  | .write data => return .result (← write wiring data)
  | .read buffer => do
    let (result, buffer) ← read wiring buffer
    return .filled result buffer
  | .direct command => do
    let (result, bytes) ← StateT.lift ((← get).config.peer.perform wiring.bus command)
    return .direct result bytes

end Link

end ElementHost
