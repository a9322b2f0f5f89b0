import ElementHost.Clock.Stopwatch
import ElementHost.Proofs.Clock.Delays
import Mathlib.Data.List.Induction
import Mathlib.Data.UInt

/-!
# Laps

A stopwatch on a counter of 32 bits takes one lap after the other, and between two laps the clock
may be asked for other things.  Each lap is a difference of two readings, and the next one begins
with the very reading that ended it.

* `differences`, the steps from one value to the next, with `sum_differences` for values that come
  round and `sum_differences_of_pairwise` for those that never run backwards;
* `Stopwatch.Query`, `Query.perform`, what a clock and a stopwatch may be asked, and `run_perform`,
  what one reading makes of it;
* `Stopwatch.Call`, `Stopwatch.run`, the record of a run, and `Run.Sound`, `sound_run`, what the
  record says;
* `laps_exact`, how the laps of a run and the other answers relate to the time that has passed.
-/

namespace ElementHost

/-! ### Differences -/

/-- The differences from each value to the next, from `start` on. -/
def differences {α : Type} [Sub α] (start : α) (values : List α) : List α :=
  List.zipWith (fun before after => after - before) (start :: values) values

section Differences

variable {α : Type} [Sub α]

theorem differences_cons (start value : α) (values : List α) :
    differences start (value :: values) = (value - start) :: differences value values := rfl

theorem differences_concat (start value : α) (values : List α) :
    differences start (values ++ [value]) =
      differences start values ++ [value - values.getLastD start] := by
  induction values generalizing start with
  | nil => rfl
  | cons first values ih =>
    rw [List.cons_append, differences_cons, ih, differences_cons, List.cons_append,
      List.getLastD_cons]

/-- The differences of numbers that come round at 32 bits add up to one difference. -/
theorem sum_differences (start : UInt32) (values : List UInt32) :
    (differences start values).sum = values.getLastD start - start := by
  induction values generalizing start with
  | nil => exact (UInt32.sub_self start).symm
  | cons value values ih =>
    rw [differences_cons, List.sum_cons, ih, List.getLastD_cons]
    grind

/-- Numbers that never decrease have a last one that is no smaller than the first. -/
theorem le_getLastD_of_pairwise {start : ℕ} {values : List ℕ}
    (h : (start :: values).Pairwise (· ≤ ·)) : start ≤ values.getLastD start := by
  cases values with
  | nil => exact Nat.le_refl start
  | cons value values =>
    rw [List.getLastD_cons]
    exact List.rel_of_pairwise_cons h (List.getLastD_mem_cons ..)

/-- The differences of numbers that never decrease add up to one difference. -/
theorem sum_differences_of_pairwise {start : ℕ} {values : List ℕ}
    (h : (start :: values).Pairwise (· ≤ ·)) :
    (differences start values).sum = values.getLastD start - start := by
  induction values generalizing start with
  | nil => exact (Nat.sub_self start).symm
  | cons value values ih =>
    have hrest : (value :: values).Pairwise (· ≤ ·) := h.of_cons
    have hfirst : start ≤ value := List.rel_of_pairwise_cons h List.mem_cons_self
    have hlast : value ≤ values.getLastD value := le_getLastD_of_pairwise hrest
    rw [differences_cons, List.sum_cons, ih hrest, List.getLastD_cons]
    omega

end Differences

/-! ### Readings and the time between them -/

namespace Timeline

variable (t : Timeline)

/-- The true times from one moment to the next, from the moment `first` on. -/
def gaps (first : ℕ) (moments : List ℕ) : List ℕ := differences (t.time first) (moments.map t.time)

variable {first : ℕ} {moments : List ℕ}

/-- The differences of readings are the gaps modulo `2 ^ 32`. -/
theorem map_toNat_differences (h : (first :: moments).Pairwise (· ≤ ·)) :
    (differences (t.reading first) (moments.map t.reading)).map UInt32.toNat =
      (t.gaps first moments).map (· % 2 ^ 32) := by
  induction moments generalizing first with
  | nil => rfl
  | cons moment moments ih =>
    have hfirst : first ≤ moment := List.rel_of_pairwise_cons h List.mem_cons_self
    have hrest := ih h.of_cons
    unfold gaps at hrest ⊢
    rw [List.map_cons, List.map_cons, differences_cons, differences_cons, List.map_cons,
      List.map_cons, t.toNat_reading_sub hfirst, hrest]

/-- Gaps that are shorter than a whole round of the counter are the differences of readings. -/
theorem map_toNat_differences_of_lt (h : (first :: moments).Pairwise (· ≤ ·))
    (hgap : ∀ gap ∈ t.gaps first moments, gap < 2 ^ 32) :
    (differences (t.reading first) (moments.map t.reading)).map UInt32.toNat =
      t.gaps first moments := by
  have hmod : (t.gaps first moments).map (· % 2 ^ 32) = (t.gaps first moments).map id := by
    apply List.map_congr_left
    intro gap hmem
    exact Nat.mod_eq_of_lt (hgap gap hmem)
  rw [t.map_toNat_differences h, hmod, List.map_id]

/-- The gaps add up to the whole time. -/
theorem sum_gaps (h : (first :: moments).Pairwise (· ≤ ·)) :
    (t.gaps first moments).sum = t.time (moments.getLastD first) - t.time first := by
  have htimes : (t.time first :: moments.map t.time).Pairwise (· ≤ ·) :=
    h.map t.time fun _ _ hle => t.monotone hle
  unfold gaps
  rw [sum_differences_of_pairwise htimes, List.getLastD_map]

/-- The difference of two readings in microseconds, wherever either number comes round. -/
theorem toNat_micros_sub {i j : ℕ} (h : i ≤ j) :
    (t.reading j * 1000 - t.reading i * 1000).toNat =
      1000 * (t.time j - t.time i) % 2 ^ 32 := by
  rw [← UInt32.sub_mul, UInt32.toNat_mul, t.toNat_reading_sub h]
  show (t.time j - t.time i) % 2 ^ 32 * 1000 % 2 ^ 32 = _
  omega

/-- A stopwatch that is begun with a given reading. -/
def begun (first : ℕ) : Stopwatch := ((Stopwatch.begin (t.uptime .counting)).run first).1

theorem startedAt_begun : (t.begun first).startedAt = t.reading first := rfl

end Timeline

namespace Stopwatch

/-! ### What may be asked -/

/-- Something to ask of a clock, or of a stopwatch that runs on it. -/
inductive Query
  | millis
  | micros
  | since (start : UInt32)
  | hasPassed (start duration : UInt32)
  | elapsed
  | lap
  deriving DecidableEq

/-- What is answered. -/
inductive Answer
  | time (amount : UInt32)
  | passed (isOver : Bool)
  deriving DecidableEq

namespace Query

/-- Asks a clock, or the stopwatch at hand. -/
def perform {m : Type → Type} [Monad m] (uptime : Uptime m) : Query → StateT Stopwatch m Answer
  | millis => return .time (← uptime.millis)
  | micros => return .time (← uptime.micros)
  | since start => return .time (← uptime.since start)
  | hasPassed start duration => return .passed (← uptime.hasPassed start duration)
  | elapsed => do
    let time ← StateT.lift ((← get).elapsed uptime)
    return .time time
  | lap => do
    let (time, watch) ← StateT.lift ((← get).lap uptime)
    set watch
    return .time time

/-- What is answered when the counter shows `now`. -/
def answer (now : UInt32) (watch : Stopwatch) : Query → Answer
  | millis => .time now
  | micros => .time (now * 1000)
  | since start => .time (now - start)
  | hasPassed start duration => .passed (duration ≤ now - start)
  | elapsed | lap => .time (now - watch.startedAt)

/-- The stopwatch afterwards. -/
def restart (now : UInt32) (watch : Stopwatch) : Query → Stopwatch
  | lap => ⟨now⟩
  | _ => watch

end Query

/-- Whatever is asked, the counter is read once. -/
theorem run_perform (t : Timeline) (query : Query) (watch : Stopwatch) (readings : ℕ) :
    ((query.perform (t.uptime .counting)).run watch).run readings =
      pure ((query.answer (t.reading readings) watch, query.restart (t.reading readings) watch),
        readings + 1) := by
  cases query <;> rfl

/-! ### Runs -/

/-- The record of one query. -/
structure Call where
  query : Query
  /-- The number of the next reading when it was asked. -/
  moment : ℕ
  answer : Answer

/-- A stopwatch, the readings that the counter has given, and what was asked so far. -/
structure Run where
  watch : Stopwatch
  readings : ℕ
  calls : List Call := []

/-- One more query. -/
def Run.step (t : Timeline) (r : Run) (query : Query) : Run :=
  match ((query.perform (t.uptime .counting)).run r.watch).run r.readings with
  | ((answer, watch), readings) =>
    { watch, readings, calls := r.calls ++ [{ query, moment := r.readings, answer }] }

/-- A run of queries, with a stopwatch that was begun before and a counter that was read before. -/
def run (t : Timeline) (watch : Stopwatch) (readings : ℕ) (queries : List Query) : Run :=
  queries.foldl (Run.step t) { watch, readings }

/-- The lap that was taken. -/
def Call.lap? (call : Call) : Option UInt32 :=
  match call.query, call.answer with
  | .lap, .time lap => some lap
  | _, _ => none

/-- The laps that were taken. -/
def laps (calls : List Call) : List UInt32 := calls.filterMap Call.lap?

/-- The numbers of the readings with which they were taken. -/
def lapMoments (calls : List Call) : List ℕ :=
  (calls.filter fun call => call.query = .lap).map Call.moment

/-- A lap adds one to those that were taken. -/
theorem laps_concat_lap (calls : List Call) (moment : ℕ) (time : UInt32) :
    laps (calls ++ [⟨.lap, moment, .time time⟩]) = laps calls ++ [time] :=
  List.filterMap_append

theorem lapMoments_concat_lap (calls : List Call) (moment : ℕ) (answer : Answer) :
    lapMoments (calls ++ [⟨.lap, moment, answer⟩]) = lapMoments calls ++ [moment] := by
  unfold lapMoments
  rw [List.filter_append, List.map_append]
  rfl

section Other

variable {call : Call} (h : call.query ≠ .lap) (calls : List Call)

include h

theorem laps_concat_of_ne : laps (calls ++ [call]) = laps calls := by
  have hnone : call.lap? = none := by
    unfold Call.lap?
    split
    · contradiction
    · rfl
  unfold laps
  rw [List.filterMap_append, List.filterMap_cons_none hnone, List.filterMap_nil, List.append_nil]

theorem lapMoments_concat_of_ne : lapMoments (calls ++ [call]) = lapMoments calls := by
  unfold lapMoments
  rw [List.filter_append, List.filter_singleton]
  simp [h]

end Other

section Runs

variable (t : Timeline) (watch : Stopwatch) (readings : ℕ) (queries : List Query)

theorem run_concat (query : Query) :
    run t watch readings (queries ++ [query]) = (run t watch readings queries).step t query := by
  rw [run, List.foldl_append]
  rfl

theorem step_eq (r : Run) (query : Query) :
    r.step t query =
      { watch := query.restart (t.reading r.readings) r.watch
        readings := r.readings + 1
        calls := r.calls ++
          [{ query, moment := r.readings
             answer := query.answer (t.reading r.readings) r.watch }] } := by
  rw [Run.step, run_perform]
  rfl

/-- What the record of a run says. -/
structure Run.Sound (r : Run) : Prop where
  readings_eq : r.readings = readings + r.calls.length
  /-- Every query took the next reading. -/
  moments : r.calls.map Call.moment = List.range' readings r.calls.length
  /-- Every answer was found from that reading. -/
  answered : ∀ call ∈ r.calls, ∃ watch,
    call.answer = call.query.answer (t.reading call.moment) watch
  /-- Every lap is the difference between the readings that began it and ended it. -/
  laps_eq : laps r.calls = differences watch.startedAt ((lapMoments r.calls).map t.reading)
  /-- The lap that is under way was begun by the end of the last one. -/
  startedAt_eq : r.watch.startedAt = ((lapMoments r.calls).map t.reading).getLastD watch.startedAt

variable {t watch readings}

theorem Run.Sound.step {r : Run} (h : r.Sound t watch readings) (query : Query) :
    (r.step t query).Sound t watch readings := by
  rw [step_eq]
  constructor
  case readings_eq =>
    rw [List.length_append, List.length_singleton, h.readings_eq, Nat.add_assoc]
  case moments =>
    rw [List.map_append, h.moments, List.length_append, List.length_singleton,
      List.range'_1_concat, ← h.readings_eq]
    rfl
  case answered =>
    intro call hcall
    rcases List.mem_append.1 hcall with hcall | hcall
    · exact h.answered call hcall
    · obtain rfl := List.mem_singleton.1 hcall
      exact ⟨r.watch, rfl⟩
  case laps_eq =>
    by_cases hlap : query = .lap
    · subst hlap
      rw [lapMoments_concat_lap, List.map_append, List.map_singleton, differences_concat,
        ← h.laps_eq, ← h.startedAt_eq]
      exact laps_concat_lap ..
    · rw [laps_concat_of_ne hlap, lapMoments_concat_of_ne hlap, h.laps_eq]
  case startedAt_eq =>
    by_cases hlap : query = .lap
    · subst hlap
      rw [lapMoments_concat_lap, List.map_append, List.map_singleton, List.getLastD_concat]
      rfl
    · have hwatch : query.restart (t.reading r.readings) r.watch = r.watch := by
        cases query with
        | lap => contradiction
        | _ => rfl
      rw [lapMoments_concat_of_ne hlap, hwatch, h.startedAt_eq]

theorem sound_run (t : Timeline) (watch : Stopwatch) (readings : ℕ) (queries : List Query) :
    (run t watch readings queries).Sound t watch readings := by
  induction queries using List.reverseRecOn with
  | nil => exact ⟨rfl, rfl, nofun, rfl, rfl⟩
  | append_singleton queries query ih =>
    rw [run_concat]
    exact ih.step query

theorem map_query_run (t : Timeline) (watch : Stopwatch) (readings : ℕ) (queries : List Query) :
    (run t watch readings queries).calls.map Call.query = queries := by
  induction queries using List.reverseRecOn with
  | nil => rfl
  | append_singleton queries query ih =>
    rw [run_concat, step_eq, List.map_append, ih]
    rfl

/-- The readings with which laps were taken come in order, and after an earlier one. -/
theorem Run.Sound.pairwise {r : Run} (h : r.Sound t watch readings) {first : ℕ}
    (hfirst : first < readings) : (first :: lapMoments r.calls).Pairwise (· ≤ ·) := by
  have hsublist : (lapMoments r.calls).Sublist (List.range' readings r.calls.length) := by
    rw [← h.moments]
    exact List.filter_sublist.map Call.moment
  constructor
  · intro moment hmoment
    have hrange := List.mem_range'_1.1 (hsublist.subset hmoment)
    omega
  · exact List.pairwise_le_range'.sublist hsublist

end Runs

end Stopwatch

/-- **Laps lose no time.**  Let a counter show the low 32 bits of a time that never runs backwards,
and let the clock on it and a stopwatch be asked for laps, with anything else in between.  Each
query takes one reading.  The laps add up, modulo `2 ^ 32`, to what lies between the start of the
stopwatch and the last reading that ended a lap.  If the stopwatch was begun on this counter and the
true time of each lap is shorter than a round of the counter, each lap is that time, and the laps
add up to all of it, however often the counter comes round.  Whether a duration has passed since
some reading is told exactly, if that reading is less than a round old.  Two readings in
microseconds differ by 1000 times the milliseconds between them, modulo `2 ^ 32`, wherever either
number comes round. -/
theorem laps_exact (t : Timeline) (watch : Stopwatch) (readings : ℕ)
    (queries : List Stopwatch.Query) :
    let calls := (Stopwatch.run t watch readings queries).calls
    let laps := Stopwatch.laps calls
    let moments := Stopwatch.lapMoments calls
    (calls.map Stopwatch.Call.query = queries ∧
      calls.map Stopwatch.Call.moment = List.range' readings queries.length) ∧
    laps.sum = (moments.map t.reading).getLastD watch.startedAt - watch.startedAt ∧
    (∀ first < readings, watch = t.begun first → (∀ gap ∈ t.gaps first moments, gap < 2 ^ 32) →
      laps.map UInt32.toNat = t.gaps first moments ∧
        (laps.map UInt32.toNat).sum = t.time (moments.getLastD first) - t.time first) ∧
    (∀ call ∈ calls, ∀ since ≤ call.moment, ∀ duration,
      call.query = .hasPassed (t.reading since) duration →
      t.time call.moment - t.time since < 2 ^ 32 →
        call.answer = .passed (duration.toNat ≤ t.time call.moment - t.time since)) ∧
    ∀ earlier ∈ calls, ∀ later ∈ calls, earlier.query = .micros → later.query = .micros →
      earlier.moment ≤ later.moment →
        ∃ before after, earlier.answer = .time before ∧ later.answer = .time after ∧
          (after - before).toNat =
            1000 * (t.time later.moment - t.time earlier.moment) % 2 ^ 32 := by
  intro calls laps moments
  have h := Stopwatch.sound_run t watch readings queries
  have hquery : calls.map Stopwatch.Call.query = queries := Stopwatch.map_query_run ..
  have hlength : calls.length = queries.length := by
    rw [← List.length_map, hquery]
  have hmicros : ∀ call ∈ calls, call.query = .micros →
      call.answer = .time (t.reading call.moment * 1000) := by
    intro call hcall hmicros
    obtain ⟨watch, hanswer⟩ := h.answered call hcall
    rw [hanswer, hmicros]
    rfl
  refine ⟨⟨hquery, ?_⟩, ?_, ?_, ?_, ?_⟩
  · rw [← hlength]
    exact h.moments
  · rw [← sum_differences, ← h.laps_eq]
  · rintro first hfirst rfl hgap
    have hpairwise : (first :: moments).Pairwise (· ≤ ·) := h.pairwise hfirst
    have hlaps : laps.map UInt32.toNat = t.gaps first moments := by
      rw [← t.map_toNat_differences_of_lt hpairwise hgap, ← t.startedAt_begun, ← h.laps_eq]
    exact ⟨hlaps, by rw [hlaps, t.sum_gaps hpairwise]⟩
  · intro call hcall since hsince duration hpassed hround
    obtain ⟨watch, hanswer⟩ := h.answered call hcall
    rw [hanswer, hpassed]
    exact congrArg Stopwatch.Answer.passed (decide_eq_decide.2 (t.passed_iff hsince hround))
  · intro earlier hearlier later hlater hbefore hafter hle
    exact ⟨_, _, hmicros earlier hearlier hbefore, hmicros later hlater hafter,
      t.toNat_micros_sub hle⟩

/-- A counter that is read every 23 days, which is almost half a round. -/
def stridingTimeline : Timeline where
  time i := 2000000000 * i
  monotone _ _ h := Nat.mul_le_mul_left _ h

/-- Four laps in 139 days, while the counter comes round twice. -/
theorem laps_exact_stridingTimeline :
    let watch := stridingTimeline.begun 0
    let queries : List Stopwatch.Query :=
      [.lap, .lap, .micros, .lap, .hasPassed (stridingTimeline.reading 4) 2000000001, .lap, .micros]
    let calls := (Stopwatch.run stridingTimeline watch 1 queries).calls
    let laps := (Stopwatch.laps calls).map UInt32.toNat
    (laps = [2000000000, 2000000000, 4000000000, 4000000000] ∧ laps.sum = 12000000000) ∧
      (∀ call ∈ calls, call.moment = 5 → call.answer = .passed false) ∧
      ∀ earlier ∈ calls, ∀ later ∈ calls, earlier.moment = 3 → later.moment = 7 →
        ∃ before after, earlier.answer = .time before ∧ later.answer = .time after ∧
          (after - before).toNat = 1000 * 8000000000 % 2 ^ 32 := by
  intro watch queries calls laps
  obtain ⟨-, -, hlaps, hpassed, hmicros⟩ := laps_exact stridingTimeline watch 1 queries
  have hmoments : Stopwatch.lapMoments calls = [1, 2, 4, 6] := by decide +kernel
  have hgaps : stridingTimeline.gaps 0 (Stopwatch.lapMoments calls) =
      [2000000000, 2000000000, 4000000000, 4000000000] := by
    rw [hmoments]
    decide
  have hquery : ∀ call ∈ calls, call.query = queries.getD (call.moment - 1) .millis := by
    decide +kernel
  refine ⟨?_, ?_, ?_⟩
  · obtain ⟨heach, hsum⟩ := hlaps 0 Nat.one_pos rfl (by rw [hgaps]; decide)
    rw [hgaps] at heach
    exact ⟨heach, by rw [hsum, hmoments]; rfl⟩
  · intro call hcall hmoment
    have hasked := hquery call hcall
    rw [hmoment] at hasked
    have hanswer := hpassed call hcall 4 (by omega) _ hasked
    rw [hmoment] at hanswer
    exact hanswer (by decide)
  · intro earlier hearlier later hlater hbefore hafter
    have hfirst := hquery earlier hearlier
    have hsecond := hquery later hlater
    rw [hbefore] at hfirst
    rw [hafter] at hsecond
    have hdifference := hmicros earlier hearlier later hlater hfirst hsecond (by omega)
    rw [hbefore, hafter] at hdifference
    exact hdifference

end ElementHost
