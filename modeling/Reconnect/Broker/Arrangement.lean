import Reconnect.Broker.Station

/-!
# Arranging a topology

An arrangement declares and deletes exchanges and queues, one after the other, and stops at the
first error. What has been declared is remembered, what has been deleted is forgotten; what is only
restored is neither.

If a binding of a queue is refused, the queue is deleted again unless it is in use or holds
messages, and the refusal is the error, whatever comes of the deletion.
-/

namespace Reconnect.Broker

/-- One step of an arrangement. -/
inductive TopologyStep where
  | declare (d : Declaration)
  /-- Declares what is remembered already. -/
  | restore (d : Declaration)
  | delete (queue : Bool) (name : String)
  deriving DecidableEq, Repr

namespace TopologyStep

/-- The request of a step. -/
def request : TopologyStep → Request
  | .declare d | .restore d => d.request
  | .delete false name => .deleteExchange name
  | .delete true name => .deleteQueue name false false

/-- The record once a step has succeeded. -/
def update (r : Record) : TopologyStep → Record
  | .declare d => r.remember d
  | .restore _ => r
  | .delete queue name => r.forget queue name

/-- The name that a step is about. -/
def name : TopologyStep → String
  | .declare d | .restore d => d.name
  | .delete _ name => name

end TopologyStep

/-- What an arrangement is doing. -/
inductive Arrangement.Phase (C : Type) where
  /-- Before the next step. -/
  | ready
  /-- It makes the request of a step. -/
  | asking (step : TopologyStep) (e : Execution C)
  /-- It deletes a queue of which a binding was refused. -/
  | withdrawing (queue : String) (binding : QueueBinding) (fault : Fault) (e : Execution C)
  deriving DecidableEq, Repr

/-- The arrangement of a topology. -/
structure Arrangement (C : Type) where
  topology : Topology
  /-- The steps that have not begun. -/
  steps : List TopologyStep
  phase : Arrangement.Phase C := .ready
  deriving DecidableEq, Repr

namespace Arrangement

variable {S C : Type} [Site S C] [Channels S C]

/-- The execution of a request of a topology. -/
def execution (t : Topology) : Execution C := .start t.client.client t.client.declareTimeout

/-- One step of an arrangement. -/
def step (w : World (Station S) C) (opens : Bool) (a : Arrangement C) :
    World (Station S) C × Step (Arrangement C) (Except (MessagingError Fault) Unit) :=
  match a.phase with
  | .ready =>
    match a.steps with
    | [] => (w, .ends (.ok ()))
    | s :: rest => (w, .moves { a with steps := rest, phase := .asking s (execution a.topology) })
  | .asking s e =>
    let r := e.step (Broker.asking s.request) w opens
    match r.2 with
    | .waits e => (r.1, .waits { a with phase := .asking s e })
    | .moves e => (r.1, .moves { a with phase := .asking s e })
    | .ends o =>
      match o.result with
      | .error e => (r.1, .ends (.error (.client e)))
      | .ok (.refused b f) =>
        (r.1, .moves { a with phase := .withdrawing s.name b f (execution a.topology) })
      | .ok _ =>
        (changeRecord r.1 a.topology.record (s.update ·), .moves { a with phase := .ready })
  | .withdrawing queue b f e =>
    let r := e.step (Broker.asking (.deleteQueue queue true true)) w opens
    match r.2 with
    | .waits e => (r.1, .waits { a with phase := .withdrawing queue b f e })
    | .moves e => (r.1, .moves { a with phase := .withdrawing queue b f e })
    | .ends _ => (r.1, .ends (.error (.queueBind queue b.exchange b.routingKey f)))

omit [Site S C] [Channels S C] in
/-- The execution that is under way. -/
def current? (a : Arrangement C) : Option (Execution C) :=
  match a.phase with
  | .ready => none
  | .asking _ e | .withdrawing _ _ _ e => some e

/-- What an arrangement waits for. -/
def wakes (a : Arrangement C) : List Event :=
  a.current?.toList.flatMap (·.wakes (Broker.asking (S := S) (.deleteExchange "")))

omit [Site S C] [Channels S C] in
/-- Whether an arrangement holds the supervisor. -/
def holds (a : Arrangement C) : Bool := a.current?.any Execution.holds

omit [Site S C] [Channels S C] in
/-- The arrangement that makes all remembered declarations again. -/
def restore (w : World (Station S) C) (t : Topology) : Arrangement C :=
  ⟨t, (recordAt w t.record).map .restore, .ready⟩

end Arrangement

end Reconnect.Broker
