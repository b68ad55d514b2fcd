import Reconnect.Endpoint
import Reconnect.Timeouts

/-!
# How a cache store is reached

Next to the address, the profile of a cache store holds the timing of the locks kept in it.
-/

namespace Reconnect.Cache

/-- The name under which the cache store's errors are reported. -/
def driverName : String := "redis"

/-- The timing of locks. -/
structure LockSettings where
  /-- Bounds one acquisition. -/
  acquireTimeout : Millis := 20000
  /-- The least pause between two attempts. -/
  retryWaitMin : Millis := 10
  /-- The greatest pause between two attempts. -/
  retryWaitMax : Millis := 100
  /-- How long a lock is held at most. -/
  ttl : Millis := 15000
  deriving DecidableEq, Repr, Inhabited

/-- The settings with the bounds of the pause replaced, in ascending order. -/
def LockSettings.withRetryWait (s : LockSettings) (a b : Millis) : LockSettings :=
  { s with retryWaitMin := min a b, retryWaitMax := max a b }

/-- How a cache store is reached. -/
structure Profile where
  timeouts : Timeouts := {}
  endpoint : Endpoint := ⟨"127.0.0.1", 6379, none, none⟩
  address : Option String := none
  database : Nat := 0
  lock : LockSettings := {}
  deriving DecidableEq, Repr, Inhabited

/-- The address of the cache store. -/
def Profile.uri (p : Profile) : Except ProfileError String :=
  match p.address with
  | some address => (checkUri driverName address ["redis", "rediss"]).map fun _ => address
  | none => p.endpoint.uri driverName "redis" (toString p.database)

end Reconnect.Cache
