import ElementHost.Store.Slot

/-!
# The store

One byte string for each slot, never longer than the slot's capacity.  A new store holds the
factory secret `01 02 … 40` and two empty contexts.

* `Store app`, with `Store.contents`, the view of a slot;
* `Store.write`, `Store.read`, and the same by identifier, `Store.writeId`, `Store.readId`.

Reading into a buffer hands the buffer back, with the stored bytes in front if it is long enough
and unchanged if it is not.
-/

namespace ElementHost

/-- Bytes that fit a capacity. -/
structure Store.Cell (capacity : Nat) where
  bytes : Bytes := []
  fits : bytes.length ≤ capacity := by simp
  deriving Repr

/-- The cell with these bytes, if they fit. -/
def Store.Cell.ofBytes? {capacity : Nat} (bytes : Bytes) : Option (Store.Cell capacity) :=
  if h : bytes.length ≤ capacity then some ⟨bytes, h⟩ else none

/-- The factory secret: the bytes from `0x01` to `0x40`. -/
def Store.factorySecret : Bytes := (List.range Slot.secretCapacity).map fun i => (i + 1).toUInt8

/-- The factory secret fills its slot. -/
@[simp] theorem Store.length_factorySecret : factorySecret.length = Slot.secretCapacity := by
  simp [factorySecret]

/-- The store, with room for `app` bytes of application context. -/
structure Store (app : Nat) where
  bindingSecret : Store.Cell Slot.secretCapacity :=
    ⟨Store.factorySecret, Nat.le_of_eq Store.length_factorySecret⟩
  manageContext : Store.Cell Slot.manageCapacity := {}
  hibernateContext : Store.Cell app := {}
  deriving Repr

namespace Store

variable {app : Nat}

instance : Inhabited (Store app) := ⟨{}⟩

/-- The contents of a slot. -/
def contents (store : Store app) : Slot → Bytes
  | .bindingSecret => store.bindingSecret.bytes
  | .manageContext => store.manageContext.bytes
  | .hibernateContext => store.hibernateContext.bytes

/-- The store with other contents in a slot, if they fit. -/
def replace? (store : Store app) (slot : Slot) (data : Bytes) : Option (Store app) :=
  match slot with
  | .bindingSecret => (Cell.ofBytes? data).map fun cell => { store with bindingSecret := cell }
  | .manageContext => (Cell.ofBytes? data).map fun cell => { store with manageContext := cell }
  | .hibernateContext =>
    (Cell.ofBytes? data).map fun cell => { store with hibernateContext := cell }

/-- Replaces the contents of a slot; data that does not fit is refused and nothing changes. -/
def write (slot : Slot) (data : Bytes) (store : Store app) : Except Error Unit × Store app :=
  match store.replace? slot data with
  | none => (.error .tooLarge, store)
  | some store => (.ok (), store)

/-- Copies the contents of a slot to the front of a buffer and tells their length. -/
def read (store : Store app) (slot : Slot) (buffer : Bytes) : Except Error Nat × Bytes :=
  let stored := store.contents slot
  if stored.length ≤ buffer.length then (.ok stored.length, stored ++ buffer.drop stored.length)
  else (.error .bufferTooSmall, buffer)

/-- Replaces the contents of the slot with an identifier. -/
def writeId (id : UInt16) (data : Bytes) (store : Store app) : Except Error Unit × Store app :=
  match Slot.ofId? id with
  | none => (.error .unknownSlot, store)
  | some slot => store.write slot data

/-- Copies the contents of the slot with an identifier to the front of a buffer. -/
def readId (store : Store app) (id : UInt16) (buffer : Bytes) : Except Error Nat × Bytes :=
  match Slot.ofId? id with
  | none => (.error .unknownSlot, buffer)
  | some slot => store.read slot buffer

end Store

end ElementHost
