import ElementHost.Bus.Fault

/-!
# The bus and the peer on it

A bus master moves bytes to and from a device at a 7-bit address and chooses whether a stop
condition follows.  What the master does is a parameter: `Bus m` is any such master whose
operations run in the monad `m`.

* `Bus m`, the operations of a bus master;
* `Bus.Speed`, the clock frequency a master is programmed with;
* `Transfer`, one transfer as data, with its direction and size, and `Transfer.run`;
* `Peer`, the one device the host talks to, with `Peer.write` and `Peer.read`.

A transfer into a buffer hands the buffer back, also when the transfer failed: a failing bus may
have filled a part of it.
-/

namespace ElementHost

/-- Bytes on the wire, in a buffer or in storage. -/
abbrev Bytes := List UInt8

/-- The clock frequency of the bus. -/
structure Bus.Speed where
  hertz : UInt32
  deriving DecidableEq, Repr

namespace Bus.Speed

/-- Standard mode, 100 kHz. -/
def standard : Speed := ⟨100000⟩

/-- Fast mode, 400 kHz. -/
def fast : Speed := ⟨400000⟩

/-- Fast mode plus, 1 MHz. -/
def fastPlus : Speed := ⟨1000000⟩

instance : Inhabited Speed := ⟨fast⟩

/-- The speed given in kilohertz. -/
def ofKilohertz (khz : UInt16) : Speed := ⟨khz.toUInt32 * 1000⟩

/-- No kilohertz value is too large to be written in hertz. -/
theorem hertz_ofKilohertz (khz : UInt16) : (ofKilohertz khz).hertz.toNat = khz.toNat * 1000 := by
  have h := khz.toNat_lt
  simp only [ofKilohertz, UInt32.toNat_mul, UInt16.toNat_toUInt32, UInt32.reduceToNat]
  omega

end Bus.Speed

/-- A bus master with operations in `m`.

`write address data stop` sends `data`; `read address buffer stop` fills `buffer` and hands it
back; `configure` brings the peripheral into a known state at the given speed. -/
structure Bus (m : Type → Type) where
  write : UInt8 → Bytes → Bool → m (Except Fault Unit)
  read : UInt8 → Bytes → Bool → m (Except Fault Unit × Bytes)
  configure : Bus.Speed → m (Except Fault Unit)

/-- Configuring a peripheral that was set up once when the board came up: nothing happens. -/
def Bus.keepSetup {m : Type → Type} [Monad m] (_ : Bus.Speed) : m (Except Fault Unit) :=
  pure (.ok ())

/-- A bus of a smaller monad, used in a larger one. -/
def Bus.lift {m n : Type → Type} [MonadLiftT m n] (bus : Bus m) : Bus n where
  write address data stop := liftM (bus.write address data stop)
  read address buffer stop := liftM (bus.read address buffer stop)
  configure speed := liftM (bus.configure speed)

/-- Which way the bytes of a transfer move, seen from the host. -/
inductive Direction
  | read
  | write
  deriving DecidableEq, Repr

/-- The bytes of a transfer. -/
inductive Transfer.Body
  /-- Bytes to send. -/
  | send (data : Bytes)
  /-- A buffer to fill. -/
  | receive (buffer : Bytes)
  deriving DecidableEq, Repr

/-- One transfer on the bus. -/
structure Transfer where
  address : UInt8
  /-- Whether a stop condition ends the transfer. -/
  stop : Bool
  body : Transfer.Body
  deriving DecidableEq, Repr

namespace Transfer

/-- The direction of a transfer. -/
def direction (t : Transfer) : Direction :=
  match t.body with
  | .send _ => .write
  | .receive _ => .read

/-- The bytes of a transfer: those to send, or the buffer to fill. -/
def bytes (t : Transfer) : Bytes :=
  match t.body with
  | .send data => data
  | .receive buffer => buffer

/-- The number of bytes moved. -/
def size (t : Transfer) : Nat := t.bytes.length

/-- Whether a transfer moves no byte at all. -/
def isEmpty (t : Transfer) : Bool := t.size == 0

/-- Runs a transfer and hands its bytes back; those of a write are as they were. -/
def run {m : Type → Type} [Monad m] (bus : Bus m) (t : Transfer) : m (Except Fault Unit × Bytes) :=
  match t.body with
  | .send data => do return (← bus.write t.address data t.stop, data)
  | .receive buffer => bus.read t.address buffer t.stop

end Transfer

/-- The one device a host talks to: its address, and whether transfers end with a stop condition. -/
structure Peer where
  address : UInt8
  stop : Bool := true
  deriving DecidableEq, Repr

namespace Peer

variable {m : Type → Type} [Monad m]

/-- Sends `data` to the peer. -/
def write (peer : Peer) (bus : Bus m) (data : Bytes) : m (Except Fault Unit) :=
  Prod.fst <$> Transfer.run bus ⟨peer.address, peer.stop, .send data⟩

/-- Fills `buffer` from the peer. -/
def read (peer : Peer) (bus : Bus m) (buffer : Bytes) : m (Except Fault Unit × Bytes) :=
  Transfer.run bus ⟨peer.address, peer.stop, .receive buffer⟩

/-- A write is one bus write of the same bytes to the peer's address. -/
theorem write_eq [LawfulMonad m] (peer : Peer) (bus : Bus m) (data : Bytes) :
    peer.write bus data = bus.write peer.address data peer.stop := by
  simp [write, Transfer.run]

/-- A read is one bus read into the same buffer from the peer's address. -/
theorem read_eq (peer : Peer) (bus : Bus m) (buffer : Bytes) :
    peer.read bus buffer = bus.read peer.address buffer peer.stop := rfl

end Peer

end ElementHost
