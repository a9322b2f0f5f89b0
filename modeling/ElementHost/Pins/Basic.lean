/-!
# Output pins

Pins are addressed by port and number.  A controller sets a pin up and drives it.

* `Level`, `Drive`, `PinSetup`;
* `PinController m φ`, a controller whose operations run in `m`.
-/

namespace ElementHost

/-- A logic level. -/
inductive Level
  | low
  | high
  deriving DecidableEq, Repr, Inhabited

/-- How an output drives its pin. -/
inductive Drive
  /-- Strongly in both directions. -/
  | pushPull
  /-- Low only; the pin floats high. -/
  | openDrain
  deriving DecidableEq, Repr, Inhabited

/-- The electrical setup of a pin. -/
structure PinSetup where
  drive : Drive := .pushPull
  /-- The level driven as soon as the pin is set up. -/
  initial : Level := .low
  deriving DecidableEq, Repr, Inhabited

/-- A push-pull output that starts at `level`. -/
def PinSetup.pushPull (level : Level) : PinSetup := { initial := level }

/-- A controller of output pins; setting one up may fail for a reason `φ`. -/
structure PinController (m : Type → Type) (φ : Type) where
  /-- Sets a pin up, given its port and number. -/
  setUp : UInt8 → UInt8 → PinSetup → m (Except φ Unit)
  /-- Drives a pin, given its port and number. -/
  drive : UInt8 → UInt8 → Level → m Unit

/-- A controller of a smaller monad, used in a larger one. -/
def PinController.lift {m n : Type → Type} {φ : Type} [MonadLiftT m n]
    (controller : PinController m φ) : PinController n φ where
  setUp port pin setup := liftM (controller.setUp port pin setup)
  drive port pin level := liftM (controller.drive port pin level)

end ElementHost
