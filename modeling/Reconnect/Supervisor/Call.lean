import Reconnect.Supervisor.Registry

/-!
# Calls of a supervisor

A call of a supervisor runs in stages. Between two stages other calls may run; within a stage
nothing else happens. Some stages wait for a signal: that a connection was opened or not, that it
answered or not, that a pause is over or the supervisor was stopped.

A recovery discards all connections, probes until a fresh connection answers, and gives a fresh
connection to every client. The mark that it runs is taken back in the same stage in which the last
waiting client gets its connection, or when it is stopped.
-/

namespace Reconnect.Supervisor

/-- What a stage waits for. -/
inductive Need (C : Type) where
  | nothing
  /-- That a connection is opened. -/
  | connection
  /-- That a connection answers. -/
  | answer (c : C)
  /-- Whether the supervisor has been stopped. -/
  | leave
  /-- That the pause between two attempts is over. -/
  | rest
  deriving DecidableEq, Repr

/-- The signal that a stage goes on with. -/
inductive Signal (C : Type) where
  | go
  | opened (c : C)
  | failed
  | stopped
  deriving DecidableEq, Repr

/-- The next stage of a call. -/
inductive Stage (C : Type) where
  /-- Registration: open the first connection of a client. -/
  | registerOpen (id : Identifier)
  /-- Registration: enter the client. -/
  | registerEnter (id : Identifier) (opened : Option C)
  /-- Registration: close a connection that came too late, or report that none was opened. -/
  | registerReport (stale : Option C)
  /-- Renewal: take the connection of a client. -/
  | renewTake (id : Identifier)
  /-- Renewal: close the connection that was taken. -/
  | renewClose (id : Identifier) (old : Option C)
  /-- Renewal: open another one. -/
  | renewOpen (id : Identifier)
  /-- Renewal: give it to the client if it still waits. -/
  | renewGive (id : Identifier) (fresh : C)
  /-- Renewal: close a connection that came too late, or report that none was opened. -/
  | renewReport (leftover : Option C)
  /-- Removal of a client. -/
  | remove (id : Identifier)
  /-- Removal of all clients; `shut` tells whether the transport is closed after them. -/
  | removeAll (shut : Bool)
  /-- Removal: close what the removed clients had. -/
  | removeClose (old : List C) (shut : Bool)
  /-- Removal: close the transport. -/
  | removeShut
  /-- Recovery: begin. -/
  | recover
  /-- Recovery: empty all slots. -/
  | discard
  /-- Recovery: close the discarded connections. -/
  | discardClose (old : List C)
  /-- Recovery: stop here if the supervisor has been stopped. -/
  | probe
  /-- Recovery: open a connection to probe with. -/
  | probeOpen
  /-- Recovery: probe. -/
  | probeAsk (c : C)
  /-- Recovery: close the connection that was probed with. -/
  | probeClose (c : C) (answered : Bool)
  /-- Recovery: pause before the next probe. -/
  | pause
  /-- Recovery: see who waits for a connection. -/
  | republish
  /-- Recovery: open a connection for each of them. -/
  | republishOpen (waiting : List Identifier) (fresh : List (Identifier × C))
  /-- Recovery: close the fresh connections after a failure. -/
  | republishAbandon (fresh : List C)
  /-- Recovery: give the fresh connections away. -/
  | republishGive (fresh : List (Identifier × C))
  /-- Recovery: close the connections that nobody took. -/
  | republishClose (unused : List C) (full : Bool)
  /-- Recovery: announce that the clients have connections again. -/
  | announce
  deriving DecidableEq, Repr

/-- What a stage waits for. -/
def Stage.need {C : Type} : Stage C → Need C
  | .registerOpen _ | .renewOpen _ | .probeOpen => .connection
  | .republishOpen (_ :: _) _ => .connection
  | .probeAsk c => .answer c
  | .probe => .leave
  | .pause => .rest
  | _ => .nothing

/-- Whether a stage belongs to a recovery. -/
def Stage.ofRecovery {C : Type} : Stage C → Bool
  | .recover | .discard | .discardClose _ | .probe | .probeOpen | .probeAsk _ | .probeClose _ _
  | .pause | .republish | .republishOpen _ _ | .republishAbandon _ | .republishGive _
  | .republishClose _ _ | .announce => true
  | _ => false

/-- The connections that a call holds before a stage. -/
def Stage.held {C : Type} : Stage C → List C
  | .registerEnter _ opened => opened.toList
  | .registerReport stale => stale.toList
  | .renewClose _ old => old.toList
  | .renewGive _ fresh => [fresh]
  | .renewReport leftover => leftover.toList
  | .removeClose old _ => old
  | .discardClose old => old
  | .probeAsk c => [c]
  | .probeClose c _ => [c]
  | .republishOpen _ fresh => fresh.map Prod.snd
  | .republishAbandon fresh => fresh
  | .republishGive fresh => fresh.map Prod.snd
  | .republishClose unused _ => unused
  | _ => []

/-- What one stage of a call does. -/
structure Turn (C : Type) where
  supervisor : Supervisor C
  /-- The next stage, none when the call has ended. -/
  next : Option (Stage C) := none
  /-- The connections that were closed. -/
  closed : List C := []
  /-- Whether a recovery was started. -/
  startsRecovery : Bool := false
  /-- Whether the transport was closed. -/
  shutsTransport : Bool := false

variable {C : Type}

/-- Reports a network failure. A recovery starts unless one is running. -/
def report (s : Supervisor C) (closed : List C) : Turn C :=
  if s.recovering then { supervisor := s, closed }
  else { supervisor := { s with recovering := true }, closed, startsRecovery := true }

/-- Ends a recovery that was stopped. -/
def stopRecovery (s : Supervisor C) : Turn C := { supervisor := { s with recovering := false } }

/-- One stage of a call. A signal that the stage does not wait for changes nothing. -/
def resume (s : Supervisor C) : Stage C → Signal C → Turn C
  | .registerOpen id, .opened c => { supervisor := s, next := some (.registerEnter id (some c)) }
  | .registerOpen id, .failed => { supervisor := s, next := some (.registerEnter id none) }
  | .registerEnter id (some c), .go =>
    -- A connection that was opened before a recovery may be dead: the client waits for the recovery.
    if s.recovering then
      { supervisor := s.enroll id none, next := some (.registerReport (some c)) }
    else { supervisor := s.enroll id (some c) }
  | .registerEnter id none, .go =>
    { supervisor := s.enroll id none, next := some (.registerReport none) }
  | .registerReport (some c), .go => { supervisor := s, closed := [c] }
  | .registerReport none, .go => s.report []
  | .renewTake id, .go =>
    if s.recovering then { supervisor := s }
    else
      match s.slots.get? id with
      | some old => { supervisor := s.setSlot id none, next := some (.renewClose id old) }
      | none => { supervisor := s }
  | .renewClose id old, .go =>
    { supervisor := s, next := some (.renewOpen id), closed := old.toList }
  | .renewOpen id, .opened c => { supervisor := s, next := some (.renewGive id c) }
  | .renewOpen _, .failed => { supervisor := s, next := some (.renewReport none) }
  | .renewGive id c, .go =>
    -- The slot may have been filled or withdrawn while the connection was being opened.
    match s.slots.get? id, s.recovering with
    | some none, false => { supervisor := s.setSlot id (some c) }
    | _, _ => { supervisor := s, next := some (.renewReport (some c)) }
  | .renewReport (some c), .go => { supervisor := s, closed := [c] }
  | .renewReport none, .go => s.report []
  | .remove id, .go =>
    { supervisor := s.withdraw id
      next := some (.removeClose (s.slots.get? id).join.toList false) }
  | .removeAll shut, .go =>
    { supervisor := s.withdrawAll, next := some (.removeClose s.occupied shut) }
  | .removeClose old shut, .go =>
    { supervisor := s, next := if shut then some .removeShut else none, closed := old }
  | .removeShut, .go => { supervisor := s, shutsTransport := true }
  | .recover, .go => { supervisor := { s with cycles := s.cycles + 1 }, next := some .discard }
  | .discard, .go =>
    { supervisor := s.clearSlots, next := some (.discardClose s.occupied) }
  | .discardClose old, .go => { supervisor := s, next := some .probe, closed := old }
  | .probe, .go => { supervisor := s, next := some .probeOpen }
  | .probe, .stopped => s.stopRecovery
  | .probeOpen, .opened c => { supervisor := s, next := some (.probeAsk c) }
  | .probeOpen, .failed => { supervisor := s, next := some .pause }
  | .probeAsk c, .go => { supervisor := s, next := some (.probeClose c true) }
  | .probeAsk c, .failed => { supervisor := s, next := some (.probeClose c false) }
  | .probeClose c answered, .go =>
    { supervisor := s, next := some (if answered then .republish else .pause), closed := [c] }
  | .pause, .go => { supervisor := s, next := some .probe }
  | .pause, .stopped => s.stopRecovery
  | .republish, .go => { supervisor := s, next := some (.republishOpen s.waiting []) }
  | .republishOpen [] fresh, .go => { supervisor := s, next := some (.republishGive fresh) }
  | .republishOpen (id :: ids) fresh, .opened c =>
    { supervisor := s, next := some (.republishOpen ids (fresh ++ [(id, c)])) }
  | .republishOpen (_ :: _) fresh, .failed =>
    { supervisor := s, next := some (.republishAbandon (fresh.map Prod.snd)) }
  | .republishAbandon fresh, .go => { supervisor := s, next := some .pause, closed := fresh }
  | .republishGive fresh, .go =>
    -- Clients that came while the connections were being opened make for another round.
    let r := s.publish fresh
    if r.1.isFull then
      { supervisor := { r.1 with recovering := false }
        next := some (.republishClose r.2 true) }
    else { supervisor := r.1, next := some (.republishClose r.2 false) }
  | .republishClose unused full, .go =>
    { supervisor := s, next := some (if full then .announce else .republish), closed := unused }
  | .announce, .go => { supervisor := { s with generation := s.generation + 1 } }
  | stage, _ => { supervisor := s, next := some stage }

end Reconnect.Supervisor
