import Reconnect.Cache.Profile
import Reconnect.Fault

/-!
# Locks

A lock excludes other locks over a set of resources: it writes a token of its own under the keys of
all its resources in the cache store, for a limited time, and later drops the keys that still hold
that token. This module holds what a lock knows of itself, and how that changes.
-/

namespace Reconnect.Cache

/-- The key under which a resource is locked. -/
def lockKey (resource : String) : String := "distributed_lock:" ++ resource

/-- A site whose connections lead to a store of locks. -/
class Keeper (S : Type) (C : outParam Type) where
  /-- Writes a token under all keys for a time, unless one of them is taken. -/
  acquire : S → C → List String → String → Millis → S × Except Fault Bool
  /-- Drops the keys that hold a token, and counts them. -/
  release : S → C → List String → String → S × Except Fault Nat

namespace LockSettings

variable (s : LockSettings) (milli : Nat)

/-- The least pause after an attempt that found a key taken, in milliseconds. -/
def leastWait : Nat := Duration.wholeMillis milli s.retryWaitMin

/-- The longest pause after an attempt that found a key taken, in milliseconds. -/
def longestWait : Nat := max (Duration.wholeMillis milli s.retryWaitMax) (s.leastWait milli)

/-- The pause after an attempt that found a key taken. A throw of the dice shortens the longest
pause by whole milliseconds. -/
def pause (roll : Nat) : Millis :=
  milli * (s.longestWait milli - roll % (s.longestWait milli - s.leastWait milli + 1))

end LockSettings

/-- What a lock knows of itself. -/
structure Lock where
  resources : List String
  /-- The token of the acquisition that holds. -/
  token : Option String := none
  acquiredAt : Option Millis := none
  releasedAt : Option Millis := none
  locked : Bool := false
  /-- Whether an acquisition is under way. -/
  acquiring : Bool := false
  deriving DecidableEq, Repr, Inhabited

namespace Lock

/-- A lock over a set of resources. -/
def ofResources (resources : List String) : Except (LockError Fault) Lock :=
  if resources.isEmpty then .error .noResourceKeys else .ok { resources }

/-- The keys of a lock in the store. -/
def keys (l : Lock) : List String := l.resources.map lockKey

/-- The time between the last acquisition and the release that followed it. -/
def heldFor (l : Lock) : Millis :=
  match l.acquiredAt, l.releasedAt with
  | some acquired, some released => released - acquired
  | _, _ => 0

/-- Whether an acquisition may begin. -/
def isIdle (l : Lock) : Bool := !l.locked && !l.acquiring

/-- The lock once an acquisition has begun. -/
def begin (l : Lock) : Lock := { l with acquiring := true }

/-- The lock once an acquisition has failed. -/
def giveUp (l : Lock) : Lock := { l with acquiring := false }

/-- The lock once an acquisition has succeeded. -/
def take (l : Lock) (token : String) (now : Millis) : Lock :=
  { l with token := some token, acquiredAt := some now, locked := true, acquiring := false }

/-- The lock once a release has succeeded. -/
def leave (l : Lock) (now : Millis) : Lock :=
  { l with token := none, releasedAt := some now, locked := false }

/-- The token that a release has to drop. -/
def held (l : Lock) : Except (LockError Fault) String :=
  if !l.locked then .error .lockReleaseBeforeAcquire
  else
    match l.token with
    | none => .error .lockValueEmpty
    | some token => if token = "" then .error .lockValueEmpty else .ok token

end Lock

end Reconnect.Cache
