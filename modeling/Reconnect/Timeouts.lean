import Reconnect.Duration

/-!
# Timeouts

The durations that govern a connection, whatever store it leads to.
-/

namespace Reconnect

/-- The durations of a connection. -/
structure Timeouts where
  /-- Bounds the opening of one connection. -/
  connection : Millis := 10000
  /-- The pause between two attempts to recover the connection. -/
  connectionRetryWait : Millis := 200
  /-- Bounds an operation that reads. -/
  read : Millis := 15000
  /-- Bounds an operation that writes. -/
  write : Millis := 15000
  /-- The pause between two attempts of one operation. -/
  operationRetryWait : Millis := 200
  deriving DecidableEq, Repr, Inhabited

end Reconnect
