import Reconnect.Schedule.World

/-!
# A scripted store for rehearsals

The store answers from two scripts, one for openings and one for signs of life. Each attempt takes
the first reply when it starts; the last reply of a script repeats, and an empty script says yes.
-/

namespace Reconnect.Rehearsal

/-- A reply of a script. -/
inductive Reply where
  | ok
  | fault (f : Fault)
  /-- A reply that takes time. -/
  | after (delay : Millis) (reply : Reply)
  deriving DecidableEq, Repr, Inhabited

/-- How the attempt with a reply goes. -/
def Reply.attempt : Reply → Attempt
  | .ok => {}
  | .fault f => { fault := some f }
  | .after delay reply => { reply.attempt with delay := delay + reply.attempt.delay }

/-- The first reply of a script and what is left of it. -/
def nextReply : List Reply → Reply × List Reply
  | [] => (.ok, [])
  | [r] => (r, [r])
  | r :: rest => (r, rest)

/-- A store that answers from scripts. -/
structure Script where
  dials : List Reply := []
  pings : List Reply := []
  created : Nat := 0
  closed : Nat := 0
  pinged : Nat := 0
  /-- How often the transport was closed. -/
  shuts : Nat := 0
  /-- The numbers of the closed connections. -/
  gone : List Nat := []
  deriving DecidableEq, Repr, Inhabited

instance : Site Script Nat where
  dial s := let r := nextReply s.dials; ({ s with dials := r.2 }, r.1.attempt)
  connect s := ({ s with created := s.created + 1 }, s.created + 1)
  ping s _ :=
    let r := nextReply s.pings
    ({ s with pings := r.2, pinged := s.pinged + 1 }, r.1.attempt)
  close s c := { s with closed := s.closed + 1, gone := c :: s.gone }
  shut s := { s with shuts := s.shuts + 1 }
  ready _ _ := false

end Reconnect.Rehearsal
