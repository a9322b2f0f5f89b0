import ElementHost.Store.Basic
import ElementHost.Proofs.Moments

/-!
# Runs of a store

A store is asked for one thing after the other, at slots that are named themselves or by their
identifiers.  Whatever it is asked for, it is a map from slots to byte strings with a bound for each
slot: a slot holds what was stored last, and what does not fit is not stored.

* `room`, the bound for each slot, with `write_of_le`, `write_of_lt`, a write of bytes that fit and
  of bytes that do not;
* `Address`, `Command`, `Reply`, what a store is asked for and what it answers;
* `Call`, `run`, the record of a run;
* `Call.Lawful`, the rules that a single call keeps, and `lawful_call`, that every call does;
* `latest`, what was stored last, and `run_holds_latest`, that it is what the slots hold.
-/

namespace ElementHost.Store

variable {app : Nat}

/-! ### Writing -/

/-- The number of bytes that a slot has room for. -/
def room (app : Nat) : Slot → Nat
  | .bindingSecret => 64
  | .manageContext => 66
  | .hibernateContext => app

theorem Cell.ofBytes?_eq_some_iff {capacity : Nat} {bytes : Bytes} {cell : Cell capacity} :
    Cell.ofBytes? bytes = some cell ↔ cell.bytes = bytes := by
  obtain ⟨held, hfits⟩ := cell
  unfold Cell.ofBytes?
  constructor
  · intro h
    split at h
    · exact (congrArg Cell.bytes (Option.some.inj h)).symm
    · cases h
  · rintro rfl
    exact dif_pos hfits

theorem Cell.ofBytes?_eq_none_iff {capacity : Nat} {bytes : Bytes} :
    (Cell.ofBytes? bytes : Option (Cell capacity)) = none ↔ capacity < bytes.length := by
  simp [Cell.ofBytes?]

/-- The contents of a slot are replaced exactly if it has room for them. -/
theorem replace?_eq_none_iff {store : Store app} {slot : Slot} {data : Bytes} :
    store.replace? slot data = none ↔ room app slot < data.length := by
  cases slot <;> exact Option.map_eq_none_iff.trans Cell.ofBytes?_eq_none_iff

/-- The other slots keep what they hold. -/
theorem contents_of_replace? {store after : Store app} {slot : Slot} {data : Bytes}
    (h : store.replace? slot data = some after) :
    after.contents = Function.update store.contents slot data := by
  cases slot <;>
  · obtain ⟨cell, hcell, rfl⟩ := Option.map_eq_some_iff.1 h
    obtain rfl := Cell.ofBytes?_eq_some_iff.1 hcell
    funext other
    cases other <;> simp [Function.update, contents]

/-- Bytes that do not fit are refused, and nothing changes. -/
theorem write_of_lt (store : Store app) {slot : Slot} {data : Bytes}
    (h : room app slot < data.length) : store.write slot data = (.error .tooLarge, store) := by
  rw [write, replace?_eq_none_iff.2 h]

/-- Bytes that fit are stored. -/
theorem write_of_le (store : Store app) {slot : Slot} {data : Bytes}
    (h : data.length ≤ room app slot) :
    ∃ after : Store app, store.write slot data = (.ok (), after) ∧
      after.contents = Function.update store.contents slot data := by
  cases hreplace : store.replace? slot data with
  | none =>
    have hlt := replace?_eq_none_iff.1 hreplace
    omega
  | some after => exact ⟨after, by rw [write, hreplace], contents_of_replace? hreplace⟩

/-! ### What a store is asked for -/

/-- A slot, named itself or by its identifier. -/
inductive Address
  | slot (slot : Slot)
  | id (id : UInt16)
  deriving DecidableEq

/-- The address is the slot, or the identifier of the slot. -/
def Address.Names (address : Address) (named : Slot) : Prop :=
  match address with
  | .slot given => given = named
  | .id given => named.id = given

instance (address : Address) : DecidablePred address.Names := fun named =>
  match address with
  | .slot given => inferInstanceAs (Decidable (given = named))
  | .id given => inferInstanceAs (Decidable (named.id = given))

/-- Something to do with a store. -/
inductive Command
  | write (address : Address) (data : Bytes)
  | read (address : Address) (buffer : Bytes)
  deriving DecidableEq

/-- What a store answers. -/
inductive Reply
  | written (result : Except Error Unit)
  /-- The result of a read, and the buffer afterwards. -/
  | copied (result : Except Error Nat) (buffer : Bytes)

namespace Command

/-- Performs a command. -/
def perform : Command → Store app → Reply × Store app
  | .write (.slot slot) data, store =>
    let (result, store) := store.write slot data
    (.written result, store)
  | .write (.id id) data, store =>
    let (result, store) := store.writeId id data
    (.written result, store)
  | .read (.slot slot) buffer, store =>
    let (result, buffer) := store.read slot buffer
    (.copied result buffer, store)
  | .read (.id id) buffer, store =>
    let (result, buffer) := store.readId id buffer
    (.copied result buffer, store)

/-- Where a command goes. -/
def address : Command → Address
  | .write address _ => address
  | .read address _ => address

/-- The same command, at a slot that is named itself. -/
def toSlot (slot : Slot) : Command → Command
  | .write _ data => .write (.slot slot) data
  | .read _ buffer => .read (.slot slot) buffer

/-- The refusal of a command: a buffer is left as it was. -/
def refusal (error : Error) : Command → Reply
  | .write _ _ => .written (.error error)
  | .read _ buffer => .copied (.error error) buffer

theorem refusal_ne (error : Error) (command : Command) :
    command.refusal error ≠ .written (.ok ()) := by
  cases command <;> simp [refusal]

end Command

/-- The record of one command. -/
structure Call (app : Nat) where
  command : Command
  before : Store app
  reply : Reply
  after : Store app

/-- Performs a command and writes its record. -/
def call (store : Store app) (command : Command) : Call app :=
  let (reply, after) := command.perform store
  { command, before := store, reply, after }

/-- The calls so far, with the store that they have led to. -/
structure Run (app : Nat) where
  store : Store app := default
  calls : List (Call app) := []

/-- One more command. -/
def Run.step (r : Run app) (command : Command) : Run app :=
  let call := r.store.call command
  { store := call.after, calls := r.calls ++ [call] }

/-- A run of commands on a new store. -/
def run (app : Nat) (commands : List Command) : Run app := commands.foldl Run.step {}

theorem run_concat (commands : List Command) (command : Command) :
    run app (commands ++ [command]) = (run app commands).step command := by
  rw [run, List.foldl_append]
  rfl

/-! ### A single call -/

/-- An address names one slot at most. -/
theorem Address.Names.unique {address : Address} {slot other : Slot} (h : address.Names slot)
    (h' : address.Names other) : slot = other := by
  cases address with
  | slot given => exact h.symm.trans h'
  | id given =>
    have hslot := Slot.ofId?_eq_some_iff.2 h
    exact Option.some.inj (hslot.symm.trans (Slot.ofId?_eq_some_iff.2 h'))

/-- A command does what it does at the slot that its address names. -/
theorem perform_of_names {command : Command} {slot : Slot} (h : command.address.Names slot)
    (store : Store app) : command.perform store = (command.toSlot slot).perform store := by
  cases command with
  | write address data =>
    cases address with
    | slot given =>
      obtain rfl : given = slot := h
      rfl
    | id given => simp only [Command.toSlot, Command.perform, writeId, Slot.ofId?_eq_some_iff.2 h]
  | read address buffer =>
    cases address with
    | slot given =>
      obtain rfl : given = slot := h
      rfl
    | id given => simp only [Command.toSlot, Command.perform, readId, Slot.ofId?_eq_some_iff.2 h]

/-- A command whose address names no slot is refused, and nothing changes. -/
theorem perform_of_unknown {command : Command} (h : ∀ slot, ¬ command.address.Names slot)
    (store : Store app) : command.perform store = (command.refusal .unknownSlot, store) := by
  have hunknown {id : UInt16} (hid : ∀ slot : Slot, slot.id ≠ id) : Slot.ofId? id = none := by
    by_contra hsome
    obtain ⟨slot, hslot⟩ := Option.ne_none_iff_exists'.1 hsome
    exact hid slot (Slot.ofId?_eq_some_iff.1 hslot)
  cases command with
  | write address data =>
    cases address with
    | slot given => exact absurd rfl (h given)
    | id given => simp only [Command.refusal, Command.perform, writeId, hunknown h]
  | read address buffer =>
    cases address with
    | slot given => exact absurd rfl (h given)
    | id given => simp only [Command.refusal, Command.perform, readId, hunknown h]

/-- All that can come of a call. -/
inductive Call.Outcome (call : Call app) : Prop
  | unknown : (∀ slot, ¬ call.command.address.Names slot) →
      call.reply = call.command.refusal .unknownSlot → call.after = call.before → Outcome call
  | refused {address : Address} {data : Bytes} {slot : Slot} :
      call.command = .write address data → address.Names slot →
      room app slot < data.length → call.reply = .written (.error .tooLarge) →
      call.after = call.before → Outcome call
  | stored {address : Address} {data : Bytes} {slot : Slot} :
      call.command = .write address data → address.Names slot →
      data.length ≤ room app slot → call.reply = .written (.ok ()) →
      call.after.contents = Function.update call.before.contents slot data → Outcome call
  | copied {address : Address} {buffer : Bytes} {result : Except Error Nat} {filled : Bytes} :
      call.command = .read address buffer → call.reply = .copied result filled →
      call.after = call.before → Outcome call

theorem outcome_call (store : Store app) (command : Command) : (store.call command).Outcome := by
  by_cases hnamed : ∃ slot, command.address.Names slot
  · obtain ⟨slot, hslot⟩ := hnamed
    have hperform := perform_of_names hslot store
    cases command with
    | write address data =>
      rcases Nat.lt_or_ge (room app slot) data.length with hlt | hle
      · rw [Command.toSlot, Command.perform, write_of_lt store hlt] at hperform
        exact .refused rfl hslot hlt (by rw [call, hperform]) (by rw [call, hperform])
      · obtain ⟨after, hwrite, hcontents⟩ := write_of_le store hle
        rw [Command.toSlot, Command.perform, hwrite] at hperform
        refine .stored rfl hslot hle (by rw [call, hperform]) ?_
        rw [call, hperform]
        exact hcontents
    | read address buffer =>
      rw [Command.toSlot, Command.perform] at hperform
      exact .copied rfl (by rw [call, hperform]) (by rw [call, hperform])
  · have hunknown : ∀ slot, ¬ command.address.Names slot := fun slot hslot => hnamed ⟨slot, hslot⟩
    have hperform := perform_of_unknown hunknown store
    exact .unknown hunknown (by rw [call, hperform]) (by rw [call, hperform])

/-- The rules that a call keeps. -/
structure Call.Lawful (call : Call app) : Prop where
  /-- A slot that is named by its identifier is the slot. -/
  named : ∀ slot, call.command.address.Names slot →
    (call.reply, call.after) = (call.command.toSlot slot).perform call.before
  /-- An identifier that no slot has is refused. -/
  unknown : (∀ slot, ¬ call.command.address.Names slot) →
    call.reply = call.command.refusal .unknownSlot
  /-- A write is accepted exactly if the slot has room for the bytes. -/
  bounded : ∀ address data slot, call.command = .write address data → address.Names slot →
    (call.reply = .written (.ok ()) ↔ data.length ≤ room app slot) ∧
      (call.reply = .written (.error .tooLarge) ↔ room app slot < data.length)
  /-- Nothing but an accepted write changes the store. -/
  kept : call.reply ≠ .written (.ok ()) → call.after = call.before
  /-- An accepted write changes its own slot alone. -/
  frame : ∀ slot, ¬ call.command.address.Names slot →
    call.after.contents slot = call.before.contents slot

theorem lawful_call (store : Store app) (command : Command) : (store.call command).Lawful := by
  have hnamed (slot : Slot) (hslot : command.address.Names slot) :
      ((store.call command).reply, (store.call command).after) =
        (command.toSlot slot).perform store :=
    perform_of_names hslot store
  refine ⟨hnamed, ?_, ?_, ?_, ?_⟩
  · intro hunknown
    exact congrArg Prod.fst (perform_of_unknown hunknown store)
  · intro address data slot hwrite hslot
    obtain rfl : command = .write address data := hwrite
    cases outcome_call store (.write address data) with
    | unknown hunknown => exact absurd hslot (hunknown slot)
    | @refused _ _ other hrefused hother hlt hreply =>
      obtain ⟨rfl, rfl⟩ := Command.write.inj hrefused
      obtain rfl := hslot.unique hother
      have hnle : ¬ data.length ≤ room app slot := by omega
      simp [hreply, hlt, hnle]
    | @stored _ _ other hstored hother hle hreply =>
      obtain ⟨rfl, rfl⟩ := Command.write.inj hstored
      obtain rfl := hslot.unique hother
      have hnlt : ¬ room app slot < data.length := by omega
      simp [hreply, hle, hnlt]
    | copied hread => cases hread
  · intro hreply
    cases outcome_call store command with
    | unknown _ _ hafter => exact hafter
    | refused _ _ _ _ hafter => exact hafter
    | stored _ _ _ haccepted => exact absurd haccepted hreply
    | copied _ _ hafter => exact hafter
  · intro slot hslot
    cases outcome_call store command with
    | unknown _ _ hafter => rw [hafter]
    | refused _ _ _ _ hafter => rw [hafter]
    | @stored address data other hwrite hother _ _ hcontents =>
      have hne : slot ≠ other := by
        rintro rfl
        rw [hwrite] at hslot
        exact hslot hother
      rw [hcontents, Function.update_of_ne hne]
    | copied _ _ hafter => rw [hafter]

/-! ### What was stored last -/

/-- The bytes that a call has stored in a slot, if it is an accepted write to the slot. -/
def Call.stored? (call : Call app) (slot : Slot) : Option Bytes :=
  match call.command, call.reply with
  | .write address data, .written (.ok ()) => if address.Names slot then some data else none
  | _, _ => none

/-- What a new store holds: the secret is the bytes from `0x01` to `0x40`. -/
def initial : Slot → Bytes
  | .bindingSecret => (List.range' 0x01 0x40).map UInt8.ofNat
  | .manageContext => []
  | .hibernateContext => []

theorem contents_new : (default : Store app).contents = initial := by
  have hsecret : factorySecret = initial .bindingSecret := by decide
  funext slot
  cases slot with
  | bindingSecret => exact hsecret
  | manageContext | hibernateContext => rfl

/-- The bytes that were stored last in a slot. -/
def latest (calls : List (Call app)) (slot : Slot) : Bytes :=
  (calls.filterMap fun call => call.stored? slot).getLast?.getD (initial slot)

theorem latest_concat (calls : List (Call app)) (call : Call app) (slot : Slot) :
    latest (calls ++ [call]) slot = (call.stored? slot).getD (latest calls slot) := by
  unfold latest
  cases hstored : call.stored? slot with
  | none => simp [hstored]
  | some data => simp [hstored]

/-- Nothing but an accepted write stores anything. -/
theorem stored?_eq_none {call : Call app} (h : call.reply ≠ .written (.ok ())) (slot : Slot) :
    call.stored? slot = none := by
  unfold Call.stored?
  split
  · exact absurd (by assumption) h
  · rfl

/-- A slot holds what a call has stored in it, or what it held before. -/
theorem contents_call (store : Store app) (command : Command) (slot : Slot) :
    (store.call command).after.contents slot =
      ((store.call command).stored? slot).getD (store.contents slot) := by
  have hkept (hreply : (store.call command).reply ≠ .written (.ok ()))
      (hafter : (store.call command).after = store) :
      (store.call command).after.contents slot =
        ((store.call command).stored? slot).getD (store.contents slot) := by
    rw [stored?_eq_none hreply, hafter]
    rfl
  cases outcome_call store command with
  | unknown _ hreply hafter => exact hkept (by rw [hreply]; exact command.refusal_ne _) hafter
  | refused _ _ _ hreply hafter => exact hkept (by simp [hreply]) hafter
  | copied _ hreply hafter => exact hkept (by simp [hreply]) hafter
  | @stored address data other hwrite hother _ hreply hcontents =>
    rw [hcontents, Call.stored?, hwrite, hreply]
    by_cases hslot : address.Names slot
    · obtain rfl := hslot.unique hother
      simp [hslot]
    · have hne : slot ≠ other := by
        rintro rfl
        exact hslot hother
      simp only [hslot, ↓reduceIte, Option.getD_none, Function.update_of_ne hne]
      rfl

theorem run_contents (app : Nat) (commands : List Command) :
    (run app commands).store.contents = latest (run app commands).calls := by
  induction commands using List.reverseRecOn with
  | nil => exact contents_new
  | append_singleton commands command ih =>
    funext slot
    rw [run_concat, Run.step, latest_concat, contents_call, ih]

/-- **A store is a map from slots to byte strings, with a bound for each slot.**  Whatever a new
store is asked for, each command is carried out in its turn and keeps the rules of `Call.Lawful`: a
write is accepted exactly if the slot has room for the bytes, which are 64 at most for the secret,
66 for the manage context and `app` for the application's own.  Before and after each call and at
the end, every slot holds what was stored in it last, or what a new store holds. -/
theorem run_holds_latest (app : Nat) (commands : List Command) :
    let r := run app commands
    r.calls.map Call.command = commands ∧
      (∀ earlier call later, r.calls = earlier ++ call :: later →
        call.before.contents = latest earlier ∧
          call.after.contents = latest (earlier ++ [call]) ∧ call.Lawful) ∧
      r.store.contents = latest r.calls := by
  refine ⟨?_, ?_, run_contents app commands⟩
  · induction commands using List.reverseRecOn with
    | nil => rfl
    | append_singleton commands command ih =>
      rw [run_concat, Run.step, List.map_append, ih]
      rfl
  · induction commands using List.reverseRecOn with
    | nil => simp [run]
    | append_singleton commands command ih =>
      have hafter := run_contents app (commands ++ [command])
      rw [run_concat] at hafter ⊢
      refine (forall_moment_concat_iff (P := fun earlier call =>
        call.before.contents = latest earlier ∧
          call.after.contents = latest (earlier ++ [call]) ∧ call.Lawful) ..).2 ⟨ih, ?_⟩
      exact ⟨run_contents app commands, hafter, lawful_call _ command⟩

end ElementHost.Store
