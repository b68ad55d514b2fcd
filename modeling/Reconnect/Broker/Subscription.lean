import Reconnect.Broker.Consumption
import Reconnect.Broker.Publication

/-!
# Publishing and subscribing to topics

A topic is a persistent topic exchange; messages are published to it with the topic as routing key.
A subscriber takes each topic from an exclusive queue of its own, named for the topic and the
subscriber. A publisher and a subscriber may have a main topic.
-/

namespace Reconnect.Broker

/-- The exchange of a topic. -/
def topicExchange (topic : String) : Declaration :=
  .exchange (.ofPersistence topic .topic true)

/-- The queue from which a subscriber takes a topic. -/
def topicQueue (topic queue : String) : Declaration :=
  .queue (.ofPersistence queue false true) [⟨topic, topic⟩]

/-- The main topic, which has to be set. -/
def requireTopic (topic : Option String) : Except (MessagingError Fault) String :=
  match topic with
  | some topic => .ok topic
  | none => .error .mainTopicNotSet

namespace Announcer

variable {C : Type}

/-- Declares a topic. -/
def declareTopic (a : Announcer) (topic : String) : Arrangement C :=
  { topology := a.topology, steps := [.declare (topicExchange topic)] }

/-- Removes a topic. -/
def removeTopic (a : Announcer) (topic : String) : Arrangement C :=
  { topology := a.topology, steps := [.delete false topic] }

/-- Publishes a message on a topic. -/
def notify (a : Announcer) (topic : String) (body : Bytes) : Publication C :=
  { client := a.topology.client, exchange := topic, key := topic, body, headers := .empty }

/-- Removes the main topic. It is unset before the exchange is deleted. -/
def removeMainTopic (a : Announcer) :
    Announcer × Except (MessagingError Fault) (Arrangement C) :=
  ({ a with mainTopic := none }, (requireTopic a.mainTopic).map a.removeTopic)

end Announcer

namespace Subscriber

variable {C : Type}

/-- The queue of a topic, once subscribed. -/
def queue? (s : Subscriber) (topic : String) : Option String := s.queues.get? topic

/-- The name of the queue of a topic. -/
def queueName (s : Subscriber) (topic : String) : String := topic ++ "_" ++ s.id.text

/-- Declares a topic and a queue that takes it. -/
def bindQueue (s : Subscriber) (topic queue : String) : Arrangement C :=
  { topology := s.topology
    steps := [.declare (topicExchange topic), .declare (topicQueue topic queue)] }

/-- Subscribes to a topic. The queue of the topic is noted before it is declared. -/
def subscribe (s : Subscriber) (topic : String) : Subscriber × Arrangement C :=
  let s := { s with queues := s.queues.insertNew topic (s.queueName topic) }
  (s, s.bindQueue topic ((s.queue? topic).getD ""))

/-- Unsubscribes from a topic. The queue of the topic is forgotten before it is deleted; without
one there is nothing to do. -/
def unsubscribe (s : Subscriber) (topic : String) : Subscriber × Arrangement C :=
  ({ s with queues := s.queues.erase topic },
    { topology := s.topology, steps := (s.queue? topic).toList.map (.delete true) })

/-- Unsubscribes from the main topic, which is unset first. -/
def unsubscribeMainTopic (s : Subscriber) :
    Subscriber × Except (MessagingError Fault) (Arrangement C) :=
  let unset := { s with mainTopic := none }
  match s.mainTopic with
  | none => (unset, .error .mainTopicNotSet)
  | some topic => let r := unset.unsubscribe topic; (r.1, .ok r.2)

/-- The consumer of a subscriber. -/
def consumer (s : Subscriber) : Consumer :=
  { client := s.topology.client, topology := some s.topology }

/-- Listens to a topic: what to arrange before, and the consumption. -/
def listen (s : Subscriber) (topic context : String) :
    Except (MessagingError Fault) (Arrangement C × Consumption C) :=
  match s.queue? topic with
  | none => .error (.topicNotSubscribed topic)
  | some queue => .ok (s.bindQueue topic queue, { consumer := s.consumer, context, queue })

end Subscriber

end Reconnect.Broker
