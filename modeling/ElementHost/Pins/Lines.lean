import ElementHost.Clock.Delay
import ElementHost.Pins.Basic

/-!
# The lines of a secure element

A secure element has a supply line and an active-low reset line.  A line is bound to a pin, or it is
absent on boards that do not wire it.  Setting an absent line up is an error; driving it does
nothing.

* `Line`, with `Line.setUp`, `Line.drive`;
* `ElementLines`, the two lines, with `ElementLines.setUp`;
* `ResetTiming`, `ElementLines.coldReset`, `ElementLines.warmReset`.

A reset goes through its delays also for lines that are absent.
-/

namespace ElementHost

/-- The pin behind a line. -/
structure Line.Binding where
  port : UInt8
  pin : UInt8
  setup : PinSetup
  deriving DecidableEq, Repr, Inhabited

/-- A logical output line, bound to a pin or absent. -/
structure Line where
  binding : Option Line.Binding
  deriving DecidableEq, Repr, Inhabited

namespace Line

/-- The line that is not wired. -/
def absent : Line := ⟨none⟩

/-- The line bound to a pin. -/
def bound (binding : Binding) : Line := ⟨some binding⟩

/-- Whether a line is bound to a pin. -/
def isPresent (line : Line) : Bool := line.binding.isSome

/-- Why a line could not be set up. -/
inductive Error
  /-- It has no pin. -/
  | absent
  /-- The pin's controller refused. -/
  | refused
  deriving DecidableEq, Repr

variable {m : Type → Type} {φ : Type} [Monad m]

/-- Sets the pin behind a line up. -/
def setUp (line : Line) (controller : PinController m φ) : m (Except Error Unit) :=
  match line.binding with
  | none => return .error .absent
  | some b => do return (← controller.setUp b.port b.pin b.setup).mapError fun _ => .refused

/-- Leaves the pin behind a line as it is. -/
def tearDown (_ : Line) : Except Error Unit := .ok ()

/-- Drives a line, if it is present. -/
def drive (line : Line) (controller : PinController m φ) (level : Level) : m Unit :=
  match line.binding with
  | none => return ()
  | some b => controller.drive b.port b.pin level

end Line

/-- How long a reset takes. -/
structure ResetTiming where
  /-- How long the reset line is held low, in microseconds. -/
  lowMicros : UInt32 := 2000
  /-- The time from power-on to the end of the reset, in milliseconds. -/
  settleMillis : UInt32 := 10
  /-- The time the element needs after the reset, in milliseconds. -/
  startupMillis : UInt32 := 15
  deriving DecidableEq, Repr, Inhabited

/-- The lines of a secure element. -/
structure ElementLines where
  /-- The supply. -/
  supply : Line
  /-- The active-low reset. -/
  reset : Line
  deriving DecidableEq, Repr, Inhabited

namespace ElementLines

variable {m : Type → Type} {φ : Type} [Monad m]

/-- Sets one line up, or skips it if it is absent. -/
def setUpIfPresent (line : Line) (controller : PinController m φ) : m (Except Line.Error Unit) :=
  if line.isPresent then line.setUp controller else return .ok ()

/-- Sets the lines up, the supply first.  The reset line is left alone if the supply fails. -/
def setUp (lines : ElementLines) (controller : PinController m φ) :
    m (Except Line.Error Unit) := do
  match ← setUpIfPresent lines.supply controller with
  | .error e => return .error e
  | .ok () => setUpIfPresent lines.reset controller

/-- Cycles the power and resets the element. -/
def coldReset (lines : ElementLines) (controller : PinController m φ) (delay : Delay m)
    (timing : ResetTiming) : m Unit := do
  lines.supply.drive controller .low
  lines.reset.drive controller .low
  delay.micros timing.lowMicros
  lines.supply.drive controller .high
  delay.millis timing.settleMillis
  lines.reset.drive controller .high
  delay.millis timing.startupMillis

/-- Resets the element with its power left on. -/
def warmReset (lines : ElementLines) (controller : PinController m φ) (delay : Delay m)
    (timing : ResetTiming) : m Unit := do
  lines.reset.drive controller .low
  delay.micros timing.lowMicros
  lines.reset.drive controller .high
  delay.millis timing.startupMillis

end ElementLines

end ElementHost
