import Reconnect.Broker.Consumption
import Reconnect.Broker.Publication

/-!
# Task queues

A task queue is a persistent queue bound to a persistent direct exchange of its own name, with that
name as routing key. Producers publish tasks to it, consumers accept each task once it is handled.
-/

namespace Reconnect.Broker

/-- A task queue. -/
structure TaskQueue where
  topology : Topology
  queue : String
  deriving DecidableEq, Repr, Inhabited

namespace TaskQueue

variable {C : Type}

/-- Declares the exchange and the queue. -/
def declare (t : TaskQueue) : Arrangement C :=
  { topology := t.topology
    steps := [
      .declare (.exchange (.ofPersistence t.queue .direct true)),
      .declare (.queue (.ofPersistence t.queue true false) [⟨t.queue, t.queue⟩])] }

/-- Deletes the exchange and the queue. -/
def remove (t : TaskQueue) : Arrangement C :=
  { topology := t.topology, steps := [.delete false t.queue, .delete true t.queue] }

end TaskQueue

/-- Publishes a task. -/
def pushTask {C : Type} (client : BrokerClient) (queue : String) (body : Bytes) : Publication C :=
  { client, exchange := queue, key := queue, body, headers := .empty }

end Reconnect.Broker
