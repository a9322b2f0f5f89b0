import ElementHost.Pins.Basic

/-!
# A bank of output pins

A bank answers to one port number, and a pin's number is its place in the bank.  Setting a pin up
drives its initial level; the drive is a matter of how the pin was made.  Driving a pin that is not
in the bank does nothing, and so does driving one that refuses the level.

* `OutputPin m`, one pin, and `PinBank m`, the bank;
* `PinBank.controller`, the bank as a controller, which fails for the reasons of `PinBank.Error`.
-/

namespace ElementHost

/-- An output pin.  Driving it tells whether the pin took the level. -/
structure OutputPin (m : Type → Type) where
  drive : Level → m Bool

/-- Output pins that answer to a single port number. -/
structure PinBank (m : Type → Type) where
  port : UInt8
  pins : List (OutputPin m)

namespace PinBank

/-- Why a pin could not be set up. -/
inductive Error
  /-- The bank has no such pin. -/
  | unknownPin
  /-- The pin refused its initial level. -/
  | refused
  deriving DecidableEq, Repr

variable {m : Type → Type} [Monad m]

/-- The pin with a port and number, if the bank has it. -/
def pin? (bank : PinBank m) (port pin : UInt8) : Option (OutputPin m) :=
  if port = bank.port then bank.pins[pin.toNat]? else none

/-- The bank as a controller. -/
def controller (bank : PinBank m) : PinController m Error where
  setUp port pin setup :=
    match bank.pin? port pin with
    | none => return .error .unknownPin
    | some output => do return if ← output.drive setup.initial then .ok () else .error .refused
  drive port pin level :=
    match bank.pin? port pin with
    | none => return ()
    | some output => discard (output.drive level)

end PinBank

end ElementHost
