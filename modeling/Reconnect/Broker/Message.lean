import Reconnect.Broker.Headers
import Reconnect.Broker.Options
import Reconnect.Fault

/-!
# Messages

What a broker keeps of a message, how it hands a message out, and how it answers a publisher.
-/

namespace Reconnect.Broker

/-- The content type of every message. -/
def contentType : String := "text/plain"

/-- A message in a queue. -/
structure Message where
  body : Bytes
  headers : Headers
  persistent : Bool := true
  contentType : String := Broker.contentType
  /-- Whether it has been handed out before. -/
  redelivered : Bool := false
  deriving DecidableEq

instance : Inhabited Message := ⟨⟨[], .empty, true, "", false⟩⟩

/-- The name of a message. -/
def Message.id? (m : Message) : Option String := m.headers.get? messageIdHeader

/-- A message that was handed out from a queue. -/
structure Delivery where
  queue : String
  message : Message
  deriving DecidableEq, Inhabited

/-- How a broker answers a publisher. -/
inductive Confirmation where
  | accepted
  /-- No queue took the message. -/
  | returned
  | refused
  /-- The channel does not confirm. -/
  | unconfirmed
  deriving DecidableEq, Repr, Inhabited

/-- What a stream of deliveries has to say. -/
inductive Arrival where
  /-- Nothing yet. -/
  | pending
  | delivery (d : Delivery)
  | failure (f : Fault)
  /-- Nothing more. -/
  | ended

end Reconnect.Broker
