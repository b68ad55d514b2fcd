import Reconnect.Schedule.World

/-!
# A network for rehearsals

The network is down while it is switched off, and until an outage has passed on the wall clock. A
connection remembers in which epoch of the network it was opened; every failure begins a new epoch.
-/

namespace Reconnect.Rehearsal

/-- A network that can be made to fail. -/
structure Network where
  /-- The time on the wall clock, which outages and expiries go by. -/
  wall : Millis := 0
  offline : Bool := false
  /-- When the last outage ends. -/
  outageEnds : Option Millis := none
  epoch : Nat := 0
  /-- The number of the last connection. -/
  serial : Nat := 0
  created : Nat := 0
  closed : Nat := 0
  pings : Nat := 0
  deriving DecidableEq, Repr, Inhabited

/-- A connection with nothing behind it. -/
structure Line where
  serial : Nat
  epoch : Nat
  deriving DecidableEq, Repr, Inhabited

namespace Network

/-- Whether the network carries anything. -/
def isUp (n : Network) : Bool := !n.offline && n.outageEnds.all (· ≤ n.wall)

/-- The fault of every call while the network is down. -/
def fault? (n : Network) : Option Fault := if n.isUp then none else some .network

/-- Switches the network on or off. -/
def setOnline (n : Network) (online : Bool) : Network :=
  { n with offline := !online, epoch := if online then n.epoch else n.epoch + 1 }

/-- Takes the network down for an amount of wall clock time. -/
def failFor (n : Network) (outage : Millis) : Network :=
  { n with outageEnds := some (n.wall + outage), epoch := n.epoch + 1 }

/-- Counts a connection that was opened. -/
def countCreated (n : Network) : Network := { n with created := n.created + 1 }

/-- Counts a connection that was closed. -/
def countClosed (n : Network) : Network := { n with closed := n.closed + 1 }

/-- Counts a sign of life that was asked for. -/
def countPing (n : Network) : Network := { n with pings := n.pings + 1 }

/-- Opens a line. -/
def openLine (n : Network) : Network × Line :=
  ({ n.countCreated with serial := n.serial + 1 }, ⟨n.serial + 1, n.epoch⟩)

end Network

instance : Site Network Line where
  dial n := (n, { fault := n.fault? })
  connect n := n.openLine
  ping n _ := (n.countPing, { fault := n.fault? })
  close n _ := n.countClosed
  shut n := n
  ready _ _ := false

end Reconnect.Rehearsal
