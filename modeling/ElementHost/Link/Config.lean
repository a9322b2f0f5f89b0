import ElementHost.Bus.Basic

/-!
# Link configuration

The tunables of the link to the secure element.  They are set once at startup.

* `Link.Config`, with `Link.Config.forPeer` and `Link.Config.withRetry`;
* `Link.Config.attempts`, the number of attempts a write is really given.
-/

namespace ElementHost.Link

/-- The address a secure element answers at unless told otherwise. -/
def defaultAddress : UInt8 := 0x30

/-- The highest bitrate a secure element supports, in kilohertz. -/
def highestBitrate : UInt16 := 400

/-- The tunables of a link. -/
structure Config where
  /-- The 7-bit address of the peer. -/
  address : UInt8 := defaultAddress
  /-- The number of attempts asked for, the first one included. -/
  maxAttempts : UInt8 := 3
  /-- The pause between two attempts, in microseconds. -/
  retryMicros : UInt32 := 100
  /-- Whether every transfer ends with a stop condition. -/
  stop : Bool := true
  /-- The bitrate the bus is programmed with, in kilohertz. -/
  bitrate : UInt16 := highestBitrate
  deriving DecidableEq, Repr, Inhabited

namespace Config

/-- The defaults for a peer at `address`. -/
def forPeer (address : UInt8) : Config := { address }

/-- The same configuration with another retry policy. -/
def withRetry (config : Config) (maxAttempts : UInt8) (retryMicros : UInt32) : Config :=
  { config with maxAttempts, retryMicros }

/-- The attempts a write is given: a setting of zero still tries once. -/
def attempts (config : Config) : UInt8 := if config.maxAttempts = 0 then 1 else config.maxAttempts

/-- A write is tried at least once. -/
theorem one_le_attempts (config : Config) : 1 ≤ config.attempts.toNat := by
  unfold attempts
  split
  · decide
  · rename_i h
    have : config.maxAttempts.toNat ≠ 0 := fun h0 => h (UInt8.toNat_inj.1 h0)
    omega

/-- The peer that a configuration names. -/
def peer (config : Config) : Peer := ⟨config.address, config.stop⟩

end Config

end ElementHost.Link
