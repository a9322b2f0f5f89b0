import ElementHost.Proofs.Clock.Delays
import ElementHost.Proofs.Pins.Board

/-!
# The order of a reset

A cold reset takes the power and drives the reset line low, waits, gives the power back, waits until
it has settled, and releases the reset line; a warm reset leaves the power alone.  Nobody is told
whether a pin has followed.

* `Board.held`, `Board.powered`, `Board.released`, the levels at each stage of a cold reset, and
  `Board.pulsed`, `Board.recovered`, those of a warm one;
* `Board.run_coldReset`, `Board.run_warmReset`, the attempts and the delays, in their order;
* `Deed`, `Setting.clocked`, a board whose delay reads a counter, where all that happens is
  recorded;
* `Board.course`, the record of a cold reset, and `exists_course_of_coldReset`, how long it lasts;
* `resets_sequenced`, what a reset does to every pin, and when.
-/

namespace ElementHost

namespace Board

variable (board : Board) (lines : ElementLines) (levels : ℕ → Level)

/-- The levels while the reset of an element without power is held. -/
def held : ℕ → Level :=
  board.drive (board.pin? lines.reset) .low (board.drive (board.pin? lines.supply) .low levels)

/-- The levels while the power settles. -/
def powered : ℕ → Level :=
  board.drive (board.pin? lines.supply) .high (board.held lines levels)

/-- The levels after a cold reset. -/
def released : ℕ → Level :=
  board.drive (board.pin? lines.reset) .high (board.powered lines levels)

/-- The levels while the reset of an element with power is held. -/
def pulsed : ℕ → Level := board.drive (board.pin? lines.reset) .low levels

/-- The levels after a warm reset. -/
def recovered : ℕ → Level :=
  board.drive (board.pin? lines.reset) .high (board.pulsed lines levels)

variable {n : Type → Type} [Monad n] [LawfulMonad n] (setting : Setting n) (timing : ResetTiming)

theorem run_coldReset :
    (lines.coldReset (board.bank setting).controller setting.delay timing).run levels = do
      setting.attempt? (board.pin? lines.supply) .low
      setting.attempt? (board.pin? lines.reset) .low
      setting.wait (board.held lines levels) .micros timing.lowMicros
      setting.attempt? (board.pin? lines.supply) .high
      setting.wait (board.powered lines levels) .millis timing.settleMillis
      setting.attempt? (board.pin? lines.reset) .high
      setting.wait (board.released lines levels) .millis timing.startupMillis
      return ((), board.released lines levels) := by
  simp only [ElementLines.coldReset, Delay.micros, Delay.millis, StateT.run_bind, run_drive,
    Setting.run_wait, bind_assoc, pure_bind]
  rfl

theorem run_warmReset :
    (lines.warmReset (board.bank setting).controller setting.delay timing).run levels = do
      setting.attempt? (board.pin? lines.reset) .low
      setting.wait (board.pulsed lines levels) .micros timing.lowMicros
      setting.attempt? (board.pin? lines.reset) .high
      setting.wait (board.recovered lines levels) .millis timing.startupMillis
      return ((), board.recovered lines levels) := by
  simp only [ElementLines.warmReset, Delay.micros, Delay.millis, StateT.run_bind, run_drive,
    Setting.run_wait, bind_assoc, pure_bind]
  rfl

theorem released_apply (i : ℕ) :
    board.released lines levels i =
      if (board.pin? lines.supply = some i ∨ board.pin? lines.reset = some i) ∧
          board.refuses i = false then .high
      else levels i := by
  simp only [released, powered, held, drive_apply]
  grind

theorem recovered_apply (i : ℕ) :
    board.recovered lines levels i =
      if board.pin? lines.reset = some i ∧ board.refuses i = false then .high else levels i := by
  simp only [recovered, pulsed, drive_apply]
  grind

/-- Two lines with different pins that do not refuse go through a cold reset as they should. -/
theorem stages_of_working {supply reset : ℕ} (hsupply : board.pin? lines.supply = some supply)
    (hreset : board.pin? lines.reset = some reset) (hne : supply ≠ reset)
    (hpower : board.refuses supply = false) (hfree : board.refuses reset = false) :
    (board.held lines levels supply = .low ∧ board.held lines levels reset = .low) ∧
      (board.powered lines levels supply = .high ∧ board.powered lines levels reset = .low) ∧
      board.released lines levels supply = .high ∧ board.released lines levels reset = .high := by
  simp [released, powered, held, drive_apply, hsupply, hreset, hne, hne.symm, hpower, hfree]

end Board

/-! ### On the time line -/

/-- What is covered by some time is covered by a longer time. -/
theorem Timeline.covered_mono (t : Timeline) {i i' j j' unit amount : ℕ} (hi : i' ≤ i) (hj : j ≤ j')
    (h : amount ≤ unit * (t.time j - t.time i - 1)) :
    amount ≤ unit * (t.time j' - t.time i' - 1) := by
  have hstart : t.time i' ≤ t.time i := t.monotone hi
  have hstop : t.time j ≤ t.time j' := t.monotone hj
  refine Nat.le_trans h (Nat.mul_le_mul_left unit ?_)
  omega

/-- Something that happens on a board whose delay reads a counter. -/
inductive Deed
  /-- Somebody tries to drive a pin. -/
  | drive (pin : ℕ) (level : Level)
  /-- The counter is read, while the pins have these levels. -/
  | reading (levels : ℕ → Level)

/-- What a cold reset does on such a board, if it reads the counter so many times in each of its
delays. -/
def Board.course (board : Board) (lines : ElementLines) (levels : ℕ → Level)
    (supply reset low settle startup : ℕ) : List Deed :=
  [Deed.drive supply .low, Deed.drive reset .low] ++
    List.replicate low (Deed.reading (board.held lines levels)) ++ [Deed.drive supply .high] ++
    List.replicate settle (Deed.reading (board.powered lines levels)) ++
    [Deed.drive reset .high] ++
    List.replicate startup (Deed.reading (board.released lines levels))

/-- Every deed is a moment of a time line; this is a reading. -/
def Passage.recording (levels : ℕ → Level) : Passage (List Deed) where
  moment := List.length
  read deeds := deeds ++ [.reading levels]
  moment_read _ := List.length_append

theorem Passage.recording_iterate (levels : ℕ → Level) (readings : ℕ) (deeds : List Deed) :
    (recording levels).read^[readings] deeds =
      deeds ++ List.replicate readings (.reading levels) := by
  induction readings with
  | zero => simp
  | succ readings ih =>
    rw [Function.iterate_succ_apply', ih, List.replicate_succ', ← List.append_assoc]
    rfl

/-- A board whose delay reads a counter, at most so many times after the first.  All deeds are
recorded. -/
def Setting.clocked (t : Timeline) (bound : ℕ) : Setting (OptionT (StateM (List Deed))) where
  attempt pin level := modify fun deeds => deeds ++ [.drive pin level]
  wait levels := ((t.uptime (.recording levels)).delay bound).wait

/-- A computation that comes to its end went through its first part. -/
theorem exists_of_run_bind {σ α β : Type} {x : OptionT (StateM σ) α}
    {f : α → OptionT (StateM σ) β} {b : β} {s s'' : σ}
    (h : (x >>= f).run.run s = (some b, s'')) :
    ∃ a s', x.run.run s = (some a, s') ∧ (f a).run.run s' = (some b, s'') := by
  rw [OptionT.run_bind, Option.elimM, StateT.run_bind] at h
  rcases hx : x.run.run s with ⟨_ | a, s'⟩
  · rw [hx] at h
    cases h
  · rw [hx] at h
    exact ⟨a, s', rfl, h⟩

section Clocked

variable {t : Timeline} {bound : ℕ} {deeds deeds' : List Deed}

theorem run_attempt_bind {β : Type} (pin : ℕ) (level : Level)
    (f : Unit → OptionT (StateM (List Deed)) β) :
    ((Setting.clocked t bound).attempt? (some pin) level >>= f).run.run deeds =
      (f ()).run.run (deeds ++ [.drive pin level]) := rfl

/-- A delay that comes to its end leaves nothing but readings behind, and has lasted long enough
from the first of them to the last. -/
theorem exists_readings_of_wait {levels : ℕ → Level} {unit : TimeUnit} {amount : UInt32}
    (h : ((Setting.clocked t bound).wait levels unit amount).run.run deeds = (some (), deeds')) :
    ∃ readings, deeds' = deeds ++ List.replicate readings (.reading levels) ∧
      amount.toNat ≤ unit.inMilli *
        (t.time (deeds.length + readings - 1) - t.time deeds.length - 1) := by
  have hrequest : t.delayFrom (.recording levels) unit amount bound deeds = (some (), deeds') := by
    rw [Timeline.delayFrom, Delay.request_eq_wait]
    exact h
  obtain ⟨readings, hreadings, hcovered⟩ := t.covered_of_delayFrom (.recording levels) hrequest
  rw [Passage.recording_iterate] at hreadings
  exact ⟨readings, hreadings, hcovered⟩

/-- A cold reset that comes to its end. -/
theorem exists_course_of_coldReset {board : Board} {lines : ElementLines}
    {levels levels' : ℕ → Level} {timing : ResetTiming} {supply reset : ℕ}
    (hsupply : board.pin? lines.supply = some supply)
    (hreset : board.pin? lines.reset = some reset)
    (h : ((lines.coldReset (board.bank (Setting.clocked t bound)).controller
      (Setting.clocked t bound).delay timing).run levels).run.run deeds =
        (some ((), levels'), deeds')) :
    ∃ a b c, deeds' = deeds ++ board.course lines levels supply reset a b c ∧
      let down := deeds.length + 1
      let up := down + a + 1
      let free := up + b + 1
      timing.lowMicros.toNat ≤ 1000 * (t.time up - t.time down - 1) ∧
      timing.settleMillis.toNat ≤ t.time free - t.time up - 1 ∧
      timing.startupMillis.toNat ≤ t.time (free + c) - t.time free - 1 := by
  rw [board.run_coldReset, hsupply, hreset, run_attempt_bind, run_attempt_bind] at h
  obtain ⟨⟨⟩, deeds₁, hwait₁, h⟩ := exists_of_run_bind h
  obtain ⟨a, rfl, hlow⟩ := exists_readings_of_wait hwait₁
  rw [run_attempt_bind] at h
  obtain ⟨⟨⟩, deeds₂, hwait₂, h⟩ := exists_of_run_bind h
  obtain ⟨b, rfl, hsettle⟩ := exists_readings_of_wait hwait₂
  rw [run_attempt_bind] at h
  obtain ⟨⟨⟩, deeds₃, hwait₃, h⟩ := exists_of_run_bind h
  obtain ⟨c, rfl, hstartup⟩ := exists_readings_of_wait hwait₃
  cases h
  refine ⟨a, b, c, by simp [Board.course], ?_⟩
  -- a delay lies between the two deeds around it, and the time line is monotone
  simp only [List.length_append, List.length_replicate, List.length_cons, List.length_nil]
    at hlow hsettle hstartup
  have hmillis : TimeUnit.millis.inMilli = 1 := rfl
  rw [hmillis] at hsettle hstartup
  refine ⟨t.covered_mono ?_ ?_ hlow, ?_, ?_⟩
  · omega
  · omega
  · rw [← Nat.one_mul (_ - _ - 1)]
    refine t.covered_mono ?_ ?_ hsettle <;> omega
  · rw [← Nat.one_mul (_ - _ - 1)]
    refine t.covered_mono ?_ ?_ hstartup <;> omega

end Clocked

/-- **Resets are sequenced.**  A reset is a fixed sequence of attempts on the pins of the two lines
and of delays, whatever else goes on around the pins: every delay comes in its place, and a line
whose pin the board does not have is passed over.  No other pins are driven, and these are pins that
the board has.  In the end every pin of these that does not refuse is high, and every other pin has
the level it had.  If the two lines have different pins and neither refuses, then both are low while
a cold reset waits for the first time, and from then on the reset line is high only while the supply
is.  On a counter that shows the low 32 bits of a time that never runs backwards, and that may come
round, a cold reset that comes to its end has kept both lines low, then the supply high, and then
both lines high for as long as it was told to, even if the first millisecond of a delay had almost
passed; what happens is numbered along the time line. -/
theorem resets_sequenced (board : Board) (lines : ElementLines) (timing : ResetTiming)
    (levels : ℕ → Level) :
    let supply := board.pin? lines.supply
    let reset := board.pin? lines.reset
    let held := board.held lines levels
    let powered := board.powered lines levels
    let released := board.released lines levels
    let pulsed := board.pulsed lines levels
    let recovered := board.recovered lines levels
    (∀ (n : Type → Type) [Monad n] [LawfulMonad n] (setting : Setting n),
      ((lines.coldReset (board.bank setting).controller setting.delay timing).run levels = do
        setting.attempt? supply .low
        setting.attempt? reset .low
        setting.wait held .micros timing.lowMicros
        setting.attempt? supply .high
        setting.wait powered .millis timing.settleMillis
        setting.attempt? reset .high
        setting.wait released .millis timing.startupMillis
        return ((), released)) ∧
      (lines.warmReset (board.bank setting).controller setting.delay timing).run levels = do
        setting.attempt? reset .low
        setting.wait pulsed .micros timing.lowMicros
        setting.attempt? reset .high
        setting.wait recovered .millis timing.startupMillis
        return ((), recovered)) ∧
    (∀ line pin, board.pin? line = some pin ↔
      ∃ b, line.binding = some b ∧ b.port = board.port ∧ b.pin.toNat = pin ∧ pin < board.size) ∧
    (∀ i, released i =
      if (supply = some i ∨ reset = some i) ∧ board.refuses i = false then .high else levels i) ∧
    (∀ i, recovered i =
      if reset = some i ∧ board.refuses i = false then .high else levels i) ∧
    ∀ v r, supply = some v → reset = some r → v ≠ r →
      board.refuses v = false → board.refuses r = false →
      (held v = .low ∧ held r = .low) ∧ powered v = .high ∧
      (∀ stage ∈ [held, powered, released], stage r = .high → stage v = .high) ∧
      ∀ (t : Timeline) bound deeds levels' deeds',
        ((lines.coldReset (board.bank (Setting.clocked t bound)).controller
          (Setting.clocked t bound).delay timing).run levels).run.run deeds =
            (some ((), levels'), deeds') →
        ∃ a b c, deeds' = deeds ++ board.course lines levels v r a b c ∧
          let down := deeds.length + 1
          let up := down + a + 1
          let free := up + b + 1
          timing.lowMicros.toNat ≤ 1000 * (t.time up - t.time down - 1) ∧
          timing.settleMillis.toNat ≤ t.time free - t.time up - 1 ∧
          timing.startupMillis.toNat ≤ t.time (free + c) - t.time free - 1 := by
  intro supply reset held powered released pulsed recovered
  refine ⟨?_, board.pin?_eq_some_iff, board.released_apply lines levels,
    board.recovered_apply lines levels, ?_⟩
  · intro n _ _ setting
    exact ⟨board.run_coldReset lines levels setting timing,
      board.run_warmReset lines levels setting timing⟩
  · intro v r hsupply hreset hne hv hr
    obtain ⟨hheld, ⟨hup, hdown⟩, hpower, -⟩ :=
      board.stages_of_working lines levels hsupply hreset hne hv hr
    refine ⟨hheld, hup, ?_, ?_⟩
    · intro stage hstage hhigh
      simp only [List.mem_cons, List.not_mem_nil, or_false] at hstage
      rcases hstage with rfl | rfl | rfl
      · exact absurd (hheld.2.symm.trans hhigh) (by decide)
      · exact hup
      · exact hpower
    · intro t bound deeds levels' deeds' h
      exact exists_course_of_coldReset hsupply hreset h

/-- A board with three pins that do not refuse. -/
def threePins : Board := ⟨0, 3, fun _ => false⟩

/-- A supply at pin 1 and a reset at pin 2. -/
def twoLines : ElementLines where
  supply := .bound ⟨0, 1, {}⟩
  reset := .bound ⟨0, 2, {}⟩

/-- Every pin is high. -/
def allHigh : ℕ → Level := fun _ => .high

/-- A counter that comes round soon, and is read at most ten times by each delay. -/
def roundingSetting : Setting (OptionT (StateM (List Deed))) :=
  Setting.clocked (steady 4294967293) 9

/-- The counter comes round while both lines are low; it is read four times then, and three times
while the power settles. -/
theorem resets_sequenced_twoLines :
    ((twoLines.coldReset (threePins.bank roundingSetting).controller roundingSetting.delay
      ⟨1500, 1, 0⟩).run allHigh).run.run [] =
        (some ((), threePins.released twoLines allHigh),
          threePins.course twoLines allHigh 1 2 4 3 0) ∧
      ∃ a b c, threePins.course twoLines allHigh 1 2 4 3 0 =
          threePins.course twoLines allHigh 1 2 a b c ∧
        1500 ≤ 1000 * ((steady 4294967293).time (1 + a + 1) - (steady 4294967293).time 1 - 1) := by
  obtain ⟨hruns, -, -, -, hworking⟩ :=
    resets_sequenced threePins twoLines ⟨1500, 1, 0⟩ allHigh
  have hrun : ((twoLines.coldReset (threePins.bank roundingSetting).controller
      roundingSetting.delay ⟨1500, 1, 0⟩).run allHigh).run.run [] =
        (some ((), threePins.released twoLines allHigh),
          threePins.course twoLines allHigh 1 2 4 3 0) := by
    rw [(hruns (OptionT (StateM (List Deed))) roundingSetting).1]
    rfl
  obtain ⟨-, -, -, hclocked⟩ := hworking 1 2 rfl rfl (by decide) rfl rfl
  obtain ⟨a, b, c, hdeeds, hlow, -⟩ := hclocked (steady 4294967293) 9 [] _ _ hrun
  exact ⟨hrun, a, b, c, hdeeds, hlow⟩

end ElementHost
