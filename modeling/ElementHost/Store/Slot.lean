import ElementHost.Bus.Basic

/-!
# Storage slots

The host keeps three byte strings for the library that talks to the secure element: the secret
that binds the platform to it, the context that manages the shielded connection, and the context
an application saves before the element hibernates.  Each has a slot with a capacity, and each slot
has a numeric identifier.

* `Slot`, `Slot.id`, `Slot.ofId?`, `Slot.secretCapacity`, `Slot.manageCapacity`;
* `Store.Error`, why storage was refused.
-/

namespace ElementHost

/-- A storage slot. -/
inductive Slot
  /-- The secret that binds the platform. -/
  | bindingSecret
  /-- The context of the shielded connection. -/
  | manageContext
  /-- The application context saved before hibernation. -/
  | hibernateContext
  deriving DecidableEq, Repr, Inhabited

namespace Slot

/-- The identifier of a slot. -/
def id : Slot → UInt16
  | .bindingSecret => 0x11
  | .manageContext => 0x12
  | .hibernateContext => 0x13

/-- The slot with an identifier. -/
def ofId? (id : UInt16) : Option Slot :=
  if id = 0x11 then some .bindingSecret
  else if id = 0x12 then some .manageContext
  else if id = 0x13 then some .hibernateContext
  else none

/-- The capacity of the binding secret. -/
def secretCapacity : Nat := 64

/-- The capacity of the manage context. -/
def manageCapacity : Nat := 0x42

/-- An identifier is found exactly at the slot that has it. -/
theorem ofId?_eq_some_iff {id : UInt16} {slot : Slot} : ofId? id = some slot ↔ slot.id = id := by
  constructor
  · intro h
    unfold ofId? at h
    split at h
    · obtain rfl := Option.some.inj h
      exact Eq.symm (by assumption)
    split at h
    · obtain rfl := Option.some.inj h
      exact Eq.symm (by assumption)
    split at h
    · obtain rfl := Option.some.inj h
      exact Eq.symm (by assumption)
    · simp at h
  · rintro rfl
    cases slot <;> rfl

end Slot

/-- Why the store refused. -/
inductive Store.Error
  /-- No slot has this identifier. -/
  | unknownSlot
  /-- The data does not fit into the slot. -/
  | tooLarge
  /-- The buffer is shorter than the stored data. -/
  | bufferTooSmall
  deriving DecidableEq, Repr

end ElementHost
