import ElementHost.Clock.Uptime

/-!
# A stepping clock

A clock for the bench that moves on with every reading, by steps that repeat in a cycle.

* `Ticker` and `Ticker.read`;
* `Ticker.restart`, which starts a new cycle.
-/

namespace ElementHost

/-- A clock that moves on with every reading. -/
structure Ticker where
  /-- What the next reading returns. -/
  now : UInt32 := 0
  /-- The steps of a whole cycle. -/
  cycle : List UInt32 := [0]
  /-- The steps left in this round; none left stands for a whole cycle. -/
  ahead : List UInt32 := []
  /-- The readings so far. -/
  reads : Nat := 0
  deriving Inhabited

namespace Ticker

/-- One reading. -/
def read (ticker : Ticker) : UInt32 × Ticker :=
  let ahead := if ticker.ahead.isEmpty then ticker.cycle else ticker.ahead
  (ticker.now, { ticker with
    now := ticker.now + ahead.headD 0
    ahead := ahead.tail
    reads := ticker.reads + 1 })

/-- Starts a new cycle. -/
def restart (cycle : List UInt32) (ticker : Ticker) : Ticker := { ticker with cycle, ahead := [] }

end Ticker

end ElementHost
