import ElementHost.Bus.Basic

/-!
# Buses that offer whole transactions

Some bus peripherals take a list of operations for one address and always close it with a stop
condition.  Such a peripheral serves as a bus master: every transfer becomes one transaction that
holds one operation, the choice of a stop condition is ignored, and reports are reduced to faults.

* `Operation`, `TransactionBus m`, the peripheral;
* `TransactionBus.bus`, the bus master made of it.
-/

namespace ElementHost

/-- One operation of a transaction. -/
inductive Operation
  /-- Bytes to send. -/
  | write (data : Bytes)
  /-- A buffer to fill. -/
  | read (buffer : Bytes)
  deriving DecidableEq, Repr

/-- The bytes of an operation: those to send, or the buffer to fill. -/
def Operation.bytes : Operation → Bytes
  | .write data => data
  | .read buffer => buffer

/-- A peripheral that runs whole transactions and hands the operations back with their buffers
filled. -/
structure TransactionBus (m : Type → Type) where
  transact : UInt8 → List Operation → m (Except Report Unit × List Operation)

namespace TransactionBus

variable {m : Type → Type} [Monad m]

/-- Runs the transaction that holds `operation` alone, and hands the operation back. -/
def single (peripheral : TransactionBus m) (address : UInt8) (operation : Operation) :
    m (Except Report Unit × Operation) := do
  let (result, operations) ← peripheral.transact address [operation]
  return (result, operations.headD operation)

/-- The bus master made of a transaction peripheral: one transaction with one operation for each
transfer, whether or not a stop condition was asked for. -/
def bus (peripheral : TransactionBus m) : Bus m where
  write address data _ := do
    let (result, _) ← peripheral.single address (.write data)
    return result.mapError Report.fault
  read address buffer _ := do
    let (result, operation) ← peripheral.single address (.read buffer)
    return (result.mapError Report.fault, operation.bytes)
  configure := Bus.keepSetup

end TransactionBus

end ElementHost
