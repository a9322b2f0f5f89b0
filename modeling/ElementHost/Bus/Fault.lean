/-!
# Faults of the two-wire bus

What the host tells its callers about a failed transfer, and how the more detailed reports of a
bus peripheral are reduced to it.

* `Fault`, the reason a transfer failed as the host sees it;
* `Report`, the reason as a bus peripheral reports it;
* `Report.fault`, the reduction from the second to the first.
-/

namespace ElementHost

/-- Why a transfer on the bus failed. -/
inductive Fault
  /-- A start or stop condition stood where none belongs. -/
  | misframed
  /-- Another master won the bus. -/
  | arbitrationLost
  /-- The peer did not acknowledge its address or a data byte. -/
  | nack
  /-- The peripheral did not finish in time. -/
  | timeout
  /-- Data arrived faster than it was taken. -/
  | overrun
  /-- Anything else. -/
  | other
  deriving DecidableEq, Repr, Inhabited

/-- The byte whose acknowledgement was missing. -/
inductive Unacknowledged
  | address
  | data
  | unknown
  deriving DecidableEq, Repr, Inhabited

/-- A failed transfer in the words of a bus peripheral. -/
inductive Report
  | misframed
  | arbitrationLost
  | notAcknowledged (byte : Unacknowledged)
  | overrun
  | other
  deriving DecidableEq, Repr, Inhabited

/-- The fault that a peripheral's report amounts to: which byte went unacknowledged is dropped. -/
def Report.fault : Report → Fault
  | .misframed => .misframed
  | .arbitrationLost => .arbitrationLost
  | .notAcknowledged _ => .nack
  | .overrun => .overrun
  | .other => .other

end ElementHost
