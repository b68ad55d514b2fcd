import Reconnect.Broker.Headers
import Reconnect.Duration
import Reconnect.Table

/-!
# Failed settlements

When the settlement of a handled message fails, its verdict is kept under the name of the message,
so that a redelivery can be settled without handling the message again. The records are bounded in
number, the oldest giving way, and in age.

Every recording takes the next slot in a row of slots. A slot whose record has been dropped or
recorded anew is stale; stale slots go when they come to the front.
-/

namespace Reconnect.Broker

/-- What is kept of a failed settlement. -/
structure FailureRecord where
  verdict : Verdict
  recordedAt : Millis
  /-- The slot it was recorded in. -/
  slot : Nat
  deriving DecidableEq, Repr, Inhabited

/-- The failed settlements. -/
structure Failures where
  capacity : Nat
  timeToLive : Millis
  records : Table String FailureRecord := .empty
  /-- The slots in order, each with the name it was taken for. -/
  slots : List (Nat × String) := []
  nextSlot : Nat := 0
  deriving DecidableEq, Repr

namespace Failures

/-- No failed settlements, with room for at least one. -/
def empty (capacity : Nat) (timeToLive : Millis) : Failures :=
  { capacity := max capacity 1, timeToLive }

/-- The number of records. -/
def size (f : Failures) : Nat := f.records.size

/-- Whether the record of a name stands in a slot. -/
def standsIn (f : Failures) (slot : Nat) (name : String) : Bool :=
  (f.records.get? name).any (·.slot == slot)

/-- Drops slots from the front until the record in the front slot is not too old. -/
def purgeFrom (now : Millis) (ttl : Millis) :
    Table String FailureRecord → List (Nat × String) →
      Table String FailureRecord × List (Nat × String)
  | records, [] => (records, [])
  | records, (slot, name) :: rest =>
    match records.get? name with
    | some r =>
      if r.slot = slot then
        if now - r.recordedAt < ttl then (records, (slot, name) :: rest)
        else purgeFrom now ttl (records.erase name) rest
      else purgeFrom now ttl records rest
    | none => purgeFrom now ttl records rest

/-- Drops the records that are too old. -/
def purge (f : Failures) (now : Millis) : Failures :=
  let r := purgeFrom now f.timeToLive f.records f.slots
  { f with records := r.1, slots := r.2 }

/-- Drops slots from the front, and the records in them, until there is room for a name. -/
def makeRoom (capacity : Nat) (name : String) :
    Table String FailureRecord → List (Nat × String) →
      Table String FailureRecord × List (Nat × String)
  | records, [] => (records, [])
  | records, (slot, oldest) :: rest =>
    if capacity ≤ records.size && !records.contains name then
      if (records.get? oldest).any (·.slot == slot) then
        makeRoom capacity name (records.erase oldest) rest
      else makeRoom capacity name records rest
    else (records, (slot, oldest) :: rest)

/-- The verdict that is kept under a name. -/
def get (f : Failures) (now : Millis) (name : String) : Failures × Option Verdict :=
  let f := f.purge now
  (f, (f.records.get? name).map FailureRecord.verdict)

/-- Keeps a verdict under a name. -/
def record (f : Failures) (now : Millis) (name : String) (verdict : Verdict) : Failures :=
  let f := f.purge now
  let r := makeRoom f.capacity name f.records f.slots
  { f with
    records := r.1.insert name ⟨verdict, now, f.nextSlot⟩
    slots := r.2 ++ [(f.nextSlot, name)]
    nextSlot := f.nextSlot + 1 }

/-- Drops the record of a name. -/
def remove (f : Failures) (name : String) : Failures := { f with records := f.records.erase name }

end Failures

end Reconnect.Broker
