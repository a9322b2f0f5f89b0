import ElementHost.Pins.Bank
import ElementHost.Pins.Lines
import Mathlib.Data.Nat.Notation
import Mathlib.Logic.Function.Basic

/-!
# A board of pins

A board has a bank of pins, some of which may refuse to be driven.  A pin that refuses keeps its
level.  Around the pins something else may go on: something may happen at each attempt to drive a
pin, and there is a delay, which may look at the levels and cannot change them.

* `Board`, `Setting`, and `Board.bank`, `Setting.delay`, the bank and the delay;
* `Board.pin?`, the pin that a line is bound to, if the board has it;
* `Board.drive`, what driving a pin does to the levels, and `Setting.attempt?`, what happens
  besides;
* `run_drive`, driving a line is that and nothing else.
-/

namespace ElementHost

/-- Pins at a port, by number.  Some may refuse to be driven. -/
structure Board where
  port : UInt8
  size : ℕ
  refuses : ℕ → Bool

/-- What goes on around the pins of a board. -/
structure Setting (n : Type → Type) where
  /-- What happens when somebody tries to drive a pin to a level. -/
  attempt : ℕ → Level → n Unit
  /-- A delay.  It may look at the levels of the pins. -/
  wait : (ℕ → Level) → TimeUnit → UInt32 → n Unit

variable {n : Type → Type} [Monad n]

namespace Setting

variable (setting : Setting n)

/-- The delay of a setting, beside the levels of the pins. -/
def delay : Delay (StateT (ℕ → Level) n) where
  wait unit amount := do
    let levels ← get
    setting.wait levels unit amount

/-- A delay leaves the levels as they are. -/
theorem run_wait [LawfulMonad n] (unit : TimeUnit) (amount : UInt32) (levels : ℕ → Level) :
    (setting.delay.wait unit amount).run levels = do
      setting.wait levels unit amount
      return ((), levels) := by
  simp [delay]

/-- What happens when somebody tries to drive a pin, if there is one. -/
def attempt? (pin : Option ℕ) (level : Level) : n Unit :=
  match pin with
  | none => return ()
  | some pin => setting.attempt pin level

end Setting

namespace Board

variable (board : Board)

/-- One pin of a board. -/
def output (setting : Setting n) (pin : ℕ) : OutputPin (StateT (ℕ → Level) n) where
  drive level := do
    setting.attempt pin level
    if board.refuses pin then return false
    else
      modify fun levels => Function.update levels pin level
      return true

/-- The pins of a board. -/
def bank (setting : Setting n) : PinBank (StateT (ℕ → Level) n) :=
  ⟨board.port, (List.range board.size).map (board.output setting)⟩

/-- The pin that a line is bound to, if the board has it. -/
def pin? (line : Line) : Option ℕ :=
  line.binding.bind fun b =>
    if b.port = board.port ∧ b.pin.toNat < board.size then some b.pin.toNat else none

/-- A line has a pin if it is bound to one at the board's port and within the board. -/
theorem pin?_eq_some_iff (line : Line) (pin : ℕ) :
    board.pin? line = some pin ↔
      ∃ b, line.binding = some b ∧ b.port = board.port ∧ b.pin.toNat = pin ∧ pin < board.size := by
  simp only [pin?, Option.bind_eq_some_iff, Option.ite_none_right_eq_some, Option.some.injEq]
  constructor
  · rintro ⟨b, hb, ⟨hport, hsize⟩, rfl⟩
    exact ⟨b, hb, hport, rfl, hsize⟩
  · rintro ⟨b, hb, hport, rfl, hsize⟩
    exact ⟨b, hb, ⟨hport, hsize⟩, rfl⟩

/-- The levels after driving a pin, if there is one. -/
def drive (pin : Option ℕ) (level : Level) (levels : ℕ → Level) : ℕ → Level :=
  match pin with
  | none => levels
  | some pin => if board.refuses pin then levels else Function.update levels pin level

theorem drive_apply (pin : Option ℕ) (level : Level) (levels : ℕ → Level) (i : ℕ) :
    board.drive pin level levels i =
      if pin = some i ∧ board.refuses i = false then level else levels i := by
  cases pin with
  | none => simp [drive]
  | some pin =>
    rw [drive]
    by_cases hrefuses : board.refuses pin
    · rw [if_pos hrefuses, if_neg]
      rintro ⟨⟨⟩, htook⟩
      exact absurd htook (by simp [hrefuses])
    · rw [if_neg hrefuses, Function.update_apply]
      by_cases hpin : i = pin
      · simp [hpin, hrefuses]
      · simp [hpin, Ne.symm hpin]

theorem run_output [LawfulMonad n] (setting : Setting n) (pin : ℕ) (level : Level)
    (levels : ℕ → Level) :
    (discard ((board.output setting pin).drive level)).run levels = do
      setting.attempt pin level
      return ((), board.drive (some pin) level levels) := by
  rw [output, drive]
  cases board.refuses pin <;> simp [discard, Functor.discard, LawfulFunctor.map_const]

theorem pin?_bank (setting : Setting n) (port pin : UInt8) :
    (board.bank setting).pin? port pin =
      (if port = board.port ∧ pin.toNat < board.size then some pin.toNat else none).map
        (board.output setting) := by
  by_cases hport : port = board.port
  · by_cases hsize : pin.toNat < board.size
    · simp [PinBank.pin?, bank, hport, hsize]
    · simp [PinBank.pin?, bank, hport, hsize]
  · simp [PinBank.pin?, bank, hport]

/-- Driving a line is an attempt on its pin, if the board has the pin. -/
theorem run_drive [LawfulMonad n] (setting : Setting n) (line : Line) (level : Level)
    (levels : ℕ → Level) :
    (line.drive (board.bank setting).controller level).run levels = do
      setting.attempt? (board.pin? line) level
      return ((), board.drive (board.pin? line) level levels) := by
  rw [Line.drive, pin?]
  cases line.binding with
  | none => simp [Setting.attempt?, drive]
  | some b =>
    simp only [PinBank.controller, pin?_bank, Option.bind_some]
    generalize (if b.port = board.port ∧ b.pin.toNat < board.size then some b.pin.toNat
      else none) = pin
    cases pin with
    | none => simp [Setting.attempt?, drive]
    | some pin => exact board.run_output setting pin level levels

end Board

end ElementHost
