import Reconnect.Broker.Message
import Reconnect.Execution

/-!
# Channels of a broker

The connections of a broker are channels. Everything a client asks of a broker is a request on a
channel, and every request is answered at once.
-/

namespace Reconnect.Broker

/-- A site whose connections are channels of a broker. -/
class Channels (S : Type) (C : outParam Type) where
  /-- The time on the wall clock. -/
  wall : S → Millis
  declareExchange : S → C → ExchangeOptions → S × Except Fault Unit
  deleteExchange : S → C → String → S × Except Fault Unit
  declareQueue : S → C → QueueOptions → S × Except Fault Unit
  /-- Binds a queue to an exchange. -/
  bindQueue : S → C → String → QueueBinding → S × Except Fault Unit
  /-- Deletes a queue, perhaps only if it has no consumer and only if it has no message. -/
  deleteQueue : S → C → String → (ifUnused ifEmpty : Bool) → S × Except Fault Unit
  /-- Publishes a message to an exchange with a routing key. -/
  publish : S → C → (exchange key : String) → Bytes → Headers → S × Except Fault Confirmation
  /-- Opens a stream of deliveries from a queue. -/
  consume : S → C → String → S × Except Fault Nat
  /-- Closes a channel. -/
  closeChannel : S → C → S × Except Fault Unit
  isOpen : S → C → Bool
  /-- Takes the next arrival from a stream. -/
  take : S → Nat → S × Arrival
  /-- Drops a stream. -/
  leave : S → Nat → S
  settle : S → Delivery → Verdict → S × Except Fault Unit

/-- What a client asks of a broker. -/
inductive Request where
  | declareExchange (exchange : ExchangeOptions)
  | deleteExchange (name : String)
  /-- Declares a queue and binds it. -/
  | declareQueue (queue : QueueOptions) (bindings : List QueueBinding)
  | deleteQueue (name : String) (ifUnused ifEmpty : Bool)
  | publish (exchange key : String) (body : Bytes) (headers : Headers)
  | consume (queue : String)
  deriving DecidableEq

/-- How a broker answers a request. -/
inductive Reply (C : Type) where
  | done
  /-- A binding was refused. -/
  | refused (binding : QueueBinding) (fault : Fault)
  | confirmed (c : Confirmation)
  /-- A stream was opened on a channel. -/
  | opened (channel : C) (stream : Nat)
  deriving DecidableEq

variable {S C : Type}

/-- Binds a queue to one exchange after the other, until a binding fails. A fault of the network
is the fault of the request, any other one is the refusal of the binding. -/
def bindAll [Channels S C] (s : S) (c : C) (queue : String) :
    List QueueBinding → S × Except Fault (Reply C)
  | [] => (s, .ok .done)
  | b :: rest =>
    let r := Channels.bindQueue s c queue b
    match r.2 with
    | .ok _ => bindAll r.1 c queue rest
    | .error f => (r.1, if f.isNetwork then .error f else .ok (.refused b f))

/-- Makes a request on a channel. -/
def request [Channels S C] (s : S) (c : C) : Request → S × Except Fault (Reply C)
  | .declareExchange x => let r := Channels.declareExchange s c x; (r.1, r.2.map fun _ => .done)
  | .deleteExchange name => let r := Channels.deleteExchange s c name; (r.1, r.2.map fun _ => .done)
  | .declareQueue q bindings =>
    let r := Channels.declareQueue s c q
    match r.2 with
    | .ok _ => bindAll r.1 c q.name bindings
    | .error f => (r.1, .error f)
  | .deleteQueue name ifUnused ifEmpty =>
    let r := Channels.deleteQueue s c name ifUnused ifEmpty
    (r.1, r.2.map fun _ => .done)
  | .publish exchange key body headers =>
    let r := Channels.publish s c exchange key body headers
    (r.1, r.2.map .confirmed)
  | .consume queue => let r := Channels.consume s c queue; (r.1, r.2.map (.opened c))

end Reconnect.Broker
