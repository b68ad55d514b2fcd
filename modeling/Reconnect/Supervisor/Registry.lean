import Reconnect.Identifier
import Reconnect.Table

/-!
# The registry of a supervisor

A supervisor keeps one slot for each registered client. A slot holds the connection that the
client works on, or nothing while the client waits for one. While the supervisor recovers, no
client sees a connection, whatever its slot holds.

The functions of this file are the steps that happen at once; what happens between two of them is
the matter of `Reconnect.Supervisor.Call`.
-/

namespace Reconnect

/-- The registry of a supervisor, whose connections have the type `C`. -/
structure Supervisor (C : Type) where
  /-- The registered clients. -/
  clients : List Identifier := []
  /-- The connection of each client. -/
  slots : Table Identifier (Option C) := .empty
  /-- Whether a recovery has been started and has not ended. -/
  recovering : Bool := false
  /-- How many recoveries have begun. -/
  cycles : Nat := 0
  /-- How many recoveries have given connections back to the clients. -/
  generation : Nat := 0
  deriving DecidableEq, Repr, Inhabited

namespace Supervisor

variable {C : Type}

/-- The number of registered clients. -/
def clientCount (s : Supervisor C) : Nat := s.clients.length

/-- The connection that a client can work on. -/
def connection? (s : Supervisor C) (id : Identifier) : Option C :=
  if s.recovering then none else (s.slots.get? id).join

/-- Registers a client with the given slot. -/
def enroll (s : Supervisor C) (id : Identifier) (slot : Option C) : Supervisor C :=
  { s with
    clients := if id ∈ s.clients then s.clients else s.clients ++ [id]
    slots := s.slots.insert id slot }

/-- Writes the slot of a registered client. -/
def setSlot (s : Supervisor C) (id : Identifier) (slot : Option C) : Supervisor C :=
  { s with slots := s.slots.insert id slot }

/-- Forgets a client. -/
def withdraw (s : Supervisor C) (id : Identifier) : Supervisor C :=
  { s with clients := s.clients.filter (· ≠ id), slots := s.slots.erase id }

/-- Forgets all clients. -/
def withdrawAll (s : Supervisor C) : Supervisor C := { s with clients := [], slots := .empty }

/-- The connections in the slots. -/
def occupied (s : Supervisor C) : List C := s.slots.values.filterMap id

/-- Empties all slots. -/
def clearSlots (s : Supervisor C) : Supervisor C :=
  { s with slots := s.slots.mapValues fun _ => none }

/-- The clients that wait for a connection. -/
def waiting (s : Supervisor C) : List Identifier :=
  s.slots.entries.filterMap fun e => if e.2.isNone then some e.1 else none

/-- Whether every client has a connection. -/
def isFull (s : Supervisor C) : Bool := s.slots.values.all Option.isSome

/-- Gives fresh connections to the clients that still wait for one. The connections of the other
clients are left over. -/
def publish (s : Supervisor C) : List (Identifier × C) → Supervisor C × List C
  | [] => (s, [])
  | (id, c) :: rest =>
    match s.slots.get? id with
    | some none => (s.setSlot id (some c)).publish rest
    | _ =>
      let r := s.publish rest
      (r.1, c :: r.2)

end Supervisor

end Reconnect
