import Reconnect.Duration
import Reconnect.Table

/-!
# Key stores

A key store holds values under keys, each for a limited time. A key that was written at a time `t`
for `n` milliseconds is there exactly at the times before `t + n`.
-/

namespace Reconnect.Cache

/-- What is written under a key. -/
structure KeyEntry where
  value : String
  /-- The first time at which the key is gone. -/
  expiry : Millis
  deriving DecidableEq, Repr, Inhabited

/-- A store of keys. -/
structure KeyStore where
  entries : Table String KeyEntry := .empty
  deriving DecidableEq, Repr, Inhabited

namespace KeyStore

/-- What is under a key at a time. -/
def entry? (s : KeyStore) (now : Millis) (key : String) : Option KeyEntry :=
  (s.entries.get? key).filter fun e => now < e.expiry

/-- The value of a key at a time. -/
def get? (s : KeyStore) (now : Millis) (key : String) : Option String :=
  (s.entry? now key).map KeyEntry.value

/-- Writes a value under a key, to be gone at a time. -/
def set (s : KeyStore) (key value : String) (expiry : Millis) : KeyStore :=
  ⟨s.entries.insert key ⟨value, expiry⟩⟩

/-- Deletes a key. -/
def delete (s : KeyStore) (key : String) : KeyStore := ⟨s.entries.erase key⟩

end KeyStore

end Reconnect.Cache
