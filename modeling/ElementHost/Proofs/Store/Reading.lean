import ElementHost.Proofs.Store.Runs

/-!
# Reading into a buffer

A caller hands a store a buffer of any length and gets it back.  If it has room for the contents of
the slot, they stand in front and the rest of the buffer is as it was; if it has not, the whole
buffer is.

* `Fills`, what may come of reading bytes into a buffer, and `fills_read`, that a read does that;
* `readChecked`, the same read as a copy over a piece of the buffer, which must have the length of
  what is copied, and `readChecked_eq`, that it always has;
* `perform_read`, where a read goes, and `latest_of_stored`, what was stored last if nothing was
  stored since;
* `read_exact`, what comes of a read after any run.
-/

namespace ElementHost.Store

variable {app : Nat}

/-! ### One read -/

/-- What comes of reading bytes into a buffer: the result, and the buffer afterwards. -/
structure Fills (stored buffer : Bytes) (result : Except Error Nat) (filled : Bytes) : Prop where
  ok_iff : ∀ n, result = .ok n ↔ stored.length ≤ buffer.length ∧ n = stored.length
  /-- The bytes stand in front. -/
  front : stored.length ≤ buffer.length → filled.take stored.length = stored
  /-- Every byte behind them is as it was. -/
  behind : stored.length ≤ buffer.length →
    filled.drop stored.length = buffer.drop stored.length
  /-- A buffer that is too short is left alone. -/
  short : buffer.length < stored.length → result = .error .bufferTooSmall ∧ filled = buffer

theorem read_of_le {store : Store app} {slot : Slot} {buffer : Bytes}
    (h : (store.contents slot).length ≤ buffer.length) :
    store.read slot buffer = (.ok (store.contents slot).length,
      store.contents slot ++ buffer.drop (store.contents slot).length) := if_pos h

theorem read_of_lt {store : Store app} {slot : Slot} {buffer : Bytes}
    (h : buffer.length < (store.contents slot).length) :
    store.read slot buffer = (.error .bufferTooSmall, buffer) := if_neg (Nat.not_le.2 h)

theorem fills_read (store : Store app) (slot : Slot) (buffer : Bytes) :
    Fills (store.contents slot) buffer (store.read slot buffer).1 (store.read slot buffer).2 := by
  rcases Nat.lt_or_ge buffer.length (store.contents slot).length with hshort | hroom
  · rw [read_of_lt hshort]
    constructor
    case ok_iff =>
      intro n
      exact iff_of_false nofun fun ⟨hroom, _⟩ => Nat.not_lt.2 hroom hshort
    case front | behind => exact fun hroom => absurd hshort (Nat.not_lt.2 hroom)
    case short => exact fun _ => ⟨rfl, rfl⟩
  · rw [read_of_le hroom]
    constructor
    case ok_iff =>
      intro n
      rw [Except.ok.injEq, and_iff_right hroom]
      exact eq_comm
    case front => exact fun _ => List.take_left
    case behind => exact fun _ => List.drop_left
    case short => exact fun hshort => absurd hshort (Nat.not_lt.2 hroom)

/-- Copies bytes over a piece of a buffer.  There is no copy if their lengths are not the same. -/
def copyOver (piece bytes : Bytes) : Option Bytes :=
  if piece.length = bytes.length then some bytes else none

/-- The same read with its copy spelled out.  There is no result if there is no copy. -/
def readChecked (store : Store app) (slot : Slot) (buffer : Bytes) :
    Option (Except Error Nat × Bytes) :=
  let stored := store.contents slot
  if stored.length ≤ buffer.length then do
    let front ← copyOver (buffer.take stored.length) stored
    return (.ok stored.length, front ++ buffer.drop stored.length)
  else
    some (.error .bufferTooSmall, buffer)

/-- A read copies over a piece of the right length, whatever is stored. -/
theorem readChecked_eq (store : Store app) (slot : Slot) (buffer : Bytes) :
    store.readChecked slot buffer = some (store.read slot buffer) := by
  unfold readChecked
  rcases Nat.lt_or_ge buffer.length (store.contents slot).length with hshort | hroom
  · rw [read_of_lt hshort]
    exact if_neg (Nat.not_le.2 hshort)
  · have hcopy : copyOver (buffer.take (store.contents slot).length) (store.contents slot) =
        some (store.contents slot) := if_pos (List.length_take_of_le hroom)
    rw [read_of_le hroom]
    simp only [hroom, ↓reduceIte, hcopy]
    rfl

/-! ### A read after a run -/

/-- A read goes to the slot that its address names, or is refused. -/
theorem perform_read (store : Store app) (address : Address) (buffer : Bytes) :
    (∃ slot, address.Names slot ∧ (Command.read address buffer).perform store =
        (.copied (store.read slot buffer).1 (store.read slot buffer).2, store)) ∨
      (∀ slot, ¬ address.Names slot) ∧ (Command.read address buffer).perform store =
        (.copied (.error .unknownSlot) buffer, store) := by
  by_cases hnamed : ∃ slot, address.Names slot
  · obtain ⟨slot, hslot⟩ := hnamed
    have hnames : (Command.read address buffer).address.Names slot := hslot
    exact .inl ⟨slot, hslot, perform_of_names hnames store⟩
  · have hunknown : ∀ slot, ¬ (Command.read address buffer).address.Names slot :=
      fun slot hslot => hnamed ⟨slot, hslot⟩
    exact .inr ⟨hunknown, perform_of_unknown hunknown store⟩

/-- What was stored last is what a call has stored, if nothing was stored since. -/
theorem latest_of_stored {earlier later : List (Call app)} {call : Call app} {slot : Slot}
    {data : Bytes} (hstored : call.stored? slot = some data)
    (hsince : ∀ other ∈ later, other.stored? slot = none) :
    latest (earlier ++ call :: later) slot = data := by
  induction later using List.reverseRecOn with
  | nil => rw [latest_concat, hstored, Option.getD_some]
  | append_singleton later last ih =>
    have hlast : last.stored? slot = none := hsince last (by simp)
    have hbefore : ∀ other ∈ later, other.stored? slot = none :=
      fun other hother => hsince other (by simp [hother])
    rw [← List.cons_append, ← List.append_assoc, latest_concat, hlast, Option.getD_none,
      ih hbefore]

/-- **A read is exact and stays in its bounds.**  After any run, let a slot be read by its name or
its identifier, into a buffer of any length.  The read answers the length of the contents exactly if
the buffer is no shorter; they then stand in front and everything behind them is as it was.
Otherwise the read is refused and the buffer left alone, and so it is for an identifier that no slot
has.  No copy is ever made between pieces of different lengths, and the store is not changed.  In
particular, what a write has stored is read back, as long as nothing else was stored in the slot
since. -/
theorem read_exact (app : Nat) (commands : List Command) (address : Address) (buffer : Bytes) :
    let r := run app commands
    let call := r.store.call (.read address buffer)
    ∃ result filled, call.reply = .copied result filled ∧ call.after = r.store ∧
      (∀ slot, address.Names slot →
        Fills (r.store.contents slot) buffer result filled ∧
          r.store.readChecked slot buffer = some (result, filled)) ∧
      ((∀ slot, ¬ address.Names slot) → result = .error .unknownSlot ∧ filled = buffer) ∧
      ∀ slot, address.Names slot → ∀ earlier write later data,
        r.calls = earlier ++ write :: later → write.stored? slot = some data →
        (∀ other ∈ later, other.stored? slot = none) → Fills data buffer result filled := by
  intro r call
  rcases perform_read r.store address buffer with ⟨slot, hslot, hperform⟩ | ⟨hunknown, hperform⟩
  · have hfills : ∀ other, address.Names other → Fills (r.store.contents other) buffer
        (r.store.read slot buffer).1 (r.store.read slot buffer).2 := by
      intro other hother
      obtain rfl := hslot.unique hother
      exact fills_read r.store slot buffer
    refine ⟨_, _, congrArg Prod.fst hperform, congrArg Prod.snd hperform, ?_, ?_, ?_⟩
    · intro other hother
      refine ⟨hfills other hother, ?_⟩
      obtain rfl := hslot.unique hother
      exact r.store.readChecked_eq slot buffer
    · intro hunknown
      exact absurd hslot (hunknown slot)
    · intro other hother earlier write later data hcalls hstored hsince
      have hlatest : r.store.contents other = data := by
        rw [run_contents, hcalls, latest_of_stored hstored hsince]
      rw [← hlatest]
      exact hfills other hother
  · refine ⟨_, _, congrArg Prod.fst hperform, congrArg Prod.snd hperform, ?_, ?_, ?_⟩
    · intro slot hslot
      exact absurd hslot (hunknown slot)
    · intro _
      exact ⟨rfl, rfl⟩
    · intro slot hslot
      exact absurd hslot (hunknown slot)

/-- A slot is read back after a write to it that was refused and a write to another one, into a
buffer that is long enough and into one that is not. -/
theorem read_exact_refusedSince :
    let commands : List Command := [.write (.slot .hibernateContext) [9, 8, 7],
      .write (.id 0x13) [1, 2, 3, 4, 5], .write (.id 0x12) [6]]
    let store := (run 4 commands).store
    (store.call (.read (.id 0x13) [0, 0, 0, 0, 0])).reply = .copied (.ok 3) [9, 8, 7, 0, 0] ∧
      (store.call (.read (.slot .hibernateContext) [0, 0])).reply =
        .copied (.error .bufferTooSmall) [0, 0] ∧
      (store.call (.read (.id 0x14) [0])).reply = .copied (.error .unknownSlot) [0] := by
  intro commands store
  have hsince : ∀ other ∈ (run 4 commands).calls.tail,
      other.stored? .hibernateContext = none := by decide
  refine ⟨?_, ?_, ?_⟩
  · obtain ⟨result, filled, hreply, -, -, -, hback⟩ :=
      read_exact 4 commands (.id 0x13) [0, 0, 0, 0, 0]
    have hfills : Fills [9, 8, 7] [0, 0, 0, 0, 0] result filled :=
      hback .hibernateContext rfl [] _ _ _ rfl rfl hsince
    have hresult : result = .ok 3 := (hfills.ok_iff 3).2 ⟨by decide, rfl⟩
    have hfilled : filled = [9, 8, 7, 0, 0] := by
      rw [← List.take_append_drop 3 filled]
      exact congrArg₂ (· ++ ·) (hfills.front (by decide)) (hfills.behind (by decide))
    rw [hreply, hresult, hfilled]
  · obtain ⟨result, filled, hreply, -, -, -, hback⟩ :=
      read_exact 4 commands (.slot .hibernateContext) [0, 0]
    have hfills : Fills [9, 8, 7] [0, 0] result filled :=
      hback .hibernateContext rfl [] _ _ _ rfl rfl hsince
    obtain ⟨hresult, hfilled⟩ := hfills.short (by decide)
    rw [hreply, hresult, hfilled]
  · obtain ⟨result, filled, hreply, -, -, hunknown, -⟩ := read_exact 4 commands (.id 0x14) [0]
    obtain ⟨hresult, hfilled⟩ := hunknown (by rintro (_ | _ | _) <;> decide)
    rw [hreply, hresult, hfilled]

end ElementHost.Store
