import Reconnect.Broker.Channel
import Reconnect.Broker.Topic
import Reconnect.Rehearsal.Network

/-!
# A broker for rehearsals

The broker keeps exchanges, queues and bindings in memory. Messages wait in a queue until it has
consumers; they are handed to the consumers in turn, each into the stream of its consumer. A
message that is requeued goes to the front of its queue.

A stream has ended once no consumer feeds it; its receiver has closed it once it is no longer
among the open streams.
-/

namespace Reconnect.Rehearsal

open Broker

/-- A consumer of a queue. -/
structure Feed where
  channel : Nat
  stream : Nat
  deriving DecidableEq, Repr, Inhabited

/-- A queue of a broker. -/
structure Queue where
  durable : Bool
  exclusive : Bool
  messages : List Message := []
  feeds : List Feed := []
  /-- Whose turn it is. -/
  turn : UInt64 := 0
  deriving DecidableEq, Inhabited

namespace Queue

/-- Hands messages to the consumers in turn until there is no message or no consumer left.
`closes` tells, for the number of a handing and a consumer, that the handing fails because the
stream has been closed; then the consumer is dropped and the message stays first. Gives the
messages that were handed out, with their consumers. -/
def handOut (closes : Nat → Feed → Bool) (n : Nat) (q : Queue) : Queue × List (Feed × Message) :=
  match hm : q.messages, hf : q.feeds with
  | [], _ => (q, [])
  | _, [] => (q, [])
  | m :: rest, f :: fs =>
    let i := q.turn.toNat % (f :: fs).length
    have hi : i < (f :: fs).length := Nat.mod_lt _ (by simp)
    let feed := (f :: fs)[i]
    if closes n feed then
      -- One consumer fewer.
      handOut closes (n + 1) { q with feeds := (f :: fs).eraseIdx i, turn := q.turn + 1 }
    else
      -- One message fewer.
      let r := handOut closes (n + 1) { q with messages := rest, turn := q.turn + 1 }
      (r.1, (feed, m) :: r.2)
termination_by q.messages.length + q.feeds.length
decreasing_by
  · have h := List.length_eraseIdx_of_lt hi
    simp only [hm, hf]
    exact Nat.add_lt_add_left (Nat.lt_of_le_of_lt (Nat.le_of_eq h) (by simp)) _
  · simp [hm, hf]

end Queue

/-- An exchange of a broker. -/
structure Exchange where
  kind : ExchangeKind
  durable : Bool
  deriving DecidableEq, Repr, Inhabited

/-- A binding of a queue to an exchange. -/
structure Binding where
  queue : String
  exchange : String
  routingKey : String
  deriving DecidableEq, Repr, Inhabited

/-- A settlement that took effect. -/
structure Settlement where
  message : Message
  verdict : Verdict
  deriving DecidableEq, Inhabited

/-- A broker in memory. -/
structure Hub where
  network : Network := {}
  exchanges : Table String Exchange := .empty
  queues : Table String Queue := .empty
  bindings : List Binding := []
  settled : List Settlement := []
  /-- How many of the next settlements fail. -/
  failingSettlements : Nat := 0
  /-- How many channels have been opened. -/
  channels : Nat := 0
  closedChannels : List Nat := []
  /-- The streams that their receivers hold, with what has not been received. -/
  streams : Table Nat (List Delivery) := .empty
  /-- How many streams have been opened. -/
  opened : Nat := 0
  deriving DecidableEq, Inhabited

namespace Hub

/-- The refusal of a request that names something unknown. -/
def notFound (what name : String) : Fault :=
  .application ("NOT_FOUND - no " ++ what ++ " '" ++ name ++ "'")

/-- The refusal to delete a queue. -/
def preconditionFailed (name state : String) : Fault :=
  .application ("PRECONDITION_FAILED - queue '" ++ name ++ "' " ++ state)

/-- Whether the receiver of a consumer's stream holds it. -/
def isLive (h : Hub) (f : Feed) : Bool := h.streams.contains f.stream

/-- Puts deliveries into the streams of their consumers. -/
def deliver (queue : String) (streams : Table Nat (List Delivery))
    (handed : List (Feed × Message)) : Table Nat (List Delivery) :=
  handed.foldl (fun s e => s.modify e.1.stream (· ++ [⟨queue, e.2⟩])) streams

/-- Hands out what waits in a queue. -/
def dispatch (h : Hub) (name : String) : Hub :=
  match h.queues.get? name with
  | none => h
  | some q =>
    let r := Queue.handOut (fun _ f => !h.isLive f) 0 { q with feeds := q.feeds.filter h.isLive }
    { h with queues := h.queues.insert name r.1, streams := deliver name h.streams r.2 }

/-- Appends a message to a queue and hands it out. -/
def enqueue (h : Hub) (name : String) (m : Message) : Hub :=
  dispatch { h with queues := h.queues.modify name fun q => { q with messages := q.messages ++ [m] } }
    name

/-- Puts a delivered message back to the front of its queue. -/
def requeue (h : Hub) (d : Delivery) : Hub :=
  let m := { d.message with redelivered := true }
  dispatch { h with queues := h.queues.modify d.queue fun q => { q with messages := m :: q.messages } }
    d.queue

/-- Forgets a queue and its bindings. -/
def removeQueue (h : Hub) (name : String) : Hub :=
  { h with
    queues := h.queues.erase name
    bindings := h.bindings.filter fun b => b.queue ≠ name }

/-- Forgets an exchange and its bindings. -/
def removeExchange (h : Hub) (name : String) : Hub :=
  { h with
    exchanges := h.exchanges.erase name
    bindings := h.bindings.filter fun b => b.exchange ≠ name }

/-- Whether a binding of an exchange takes a routing key. -/
def takes (kind : ExchangeKind) (pattern key : String) : Bool :=
  match kind with
  | .direct => pattern == key
  | .fanout => true
  | .topic => topicMatches pattern key

/-- The queues that a message goes to. The exchange without a name leads to the queue that the
routing key names. -/
def route (h : Hub) (exchange key : String) : Except Fault (List String) :=
  if exchange = "" then .ok (if h.queues.contains key then [key] else [])
  else
    match h.exchanges.get? exchange with
    | none => .error (notFound "exchange" exchange)
    | some x =>
      .ok ((h.bindings.filter fun b => b.exchange == exchange && takes x.kind b.routingKey key).map
        Binding.queue).eraseDups

/-- Whether a queue has a consumer whose stream is held. -/
def consumed (h : Hub) (q : Queue) : Bool := q.feeds.any h.isLive

/-- The number of consumers of a queue whose streams are held. -/
def consumerCount (h : Hub) (name : String) : Nat :=
  ((h.queues.get? name).map fun q => (q.feeds.filter h.isLive).length).getD 0

/-- The messages that wait in a queue. -/
def waiting (h : Hub) (name : String) : List Message :=
  ((h.queues.get? name).map Queue.messages).getD []

/-- Drops the consumers that satisfy `p`. -/
def dropFeeds (h : Hub) (p : Feed → Bool) : Hub :=
  { h with queues := h.queues.mapValues fun q => { q with feeds := q.feeds.filter (!p ·) } }

/-- Drops every consumer. -/
def dropConsumers (h : Hub) : Hub := h.dropFeeds fun _ => true

/-- Drops what does not survive the loss of the broker's connection. -/
def resetTransient (h : Hub) : Hub :=
  let queues := h.queues.entries.filterMap fun e =>
    if !e.2.durable || e.2.exclusive then some e.1 else none
  let h := queues.foldl removeQueue h
  let exchanges := h.exchanges.entries.filterMap fun e => if e.2.durable then none else some e.1
  exchanges.foldl removeExchange h

/-- Whether a binding is there. -/
def isBound (h : Hub) (queue exchange key : String) : Bool :=
  h.bindings.contains ⟨queue, exchange, key⟩

/-- Enqueues a message without an exchange. -/
def inject (h : Hub) (queue : String) (body : Bytes) (id? : Option String) : Hub :=
  h.enqueue queue { body, headers := .ofList (id?.toList.map (messageIdHeader, ·)) }

/-- Opens a channel. -/
def openChannel (h : Hub) : Hub × Nat :=
  ({ h with network := h.network.countCreated, channels := h.channels + 1 }, h.channels + 1)

/-- Closes a channel. -/
def close (h : Hub) (c : Nat) : Hub :=
  { h.dropFeeds (·.channel == c) with closedChannels := c :: h.closedChannels }

/-- Whether a channel is open. -/
def isOpen (h : Hub) (c : Nat) : Bool := !h.closedChannels.contains c

/-- The fault of every request on a channel that is closed or has no network. -/
def fault? (h : Hub) (c : Nat) : Option Fault :=
  if h.isOpen c then h.network.fault? else some .network

/-- Serves a request unless the channel is closed or has no network. -/
def serve {α : Type} (h : Hub) (c : Nat) (r : Hub × Except Fault α) : Hub × Except Fault α :=
  match h.fault? c with
  | some f => (h, .error f)
  | none => r

/-- Declares an exchange. One that is there stays as it is. -/
def declareExchange (h : Hub) (x : ExchangeOptions) : Hub :=
  { h with exchanges := h.exchanges.insertNew x.name ⟨x.kind, x.durable⟩ }

/-- Declares a queue. One that is there stays as it is. -/
def declareQueue (h : Hub) (q : QueueOptions) : Hub :=
  { h with
    queues := h.queues.insertNew q.name { durable := q.durable, exclusive := q.exclusive } }

/-- Binds a queue to an exchange. -/
def bind (h : Hub) (queue : String) (b : QueueBinding) : Hub × Except Fault Unit :=
  if !h.queues.contains queue then (h, .error (notFound "queue" queue))
  else if !h.exchanges.contains b.exchange then (h, .error (notFound "exchange" b.exchange))
  else
    let binding : Binding := ⟨queue, b.exchange, b.routingKey⟩
    (if h.bindings.contains binding then h else { h with bindings := h.bindings ++ [binding] },
      .ok ())

/-- Deletes a queue, perhaps only if it has no consumer and only if it has no message. -/
def deleteQueue (h : Hub) (name : String) (ifUnused ifEmpty : Bool) : Hub × Except Fault Unit :=
  match h.queues.get? name with
  | none => (h, .ok ())
  | some q =>
    if ifUnused && h.consumed q then (h, .error (preconditionFailed name "in use"))
    else if ifEmpty && !q.messages.isEmpty then
      (h, .error (preconditionFailed name "not empty"))
    else (h.removeQueue name, .ok ())

/-- Publishes a message. -/
def publish (h : Hub) (exchange key : String) (body : Bytes) (headers : Headers) :
    Hub × Except Fault Confirmation :=
  match h.route exchange key with
  | .error f => (h, .error f)
  | .ok [] => (h, .ok .returned)
  | .ok targets => (targets.foldl (·.enqueue · { body, headers }) h, .ok .accepted)

/-- Opens a stream of deliveries from a queue. -/
def consume (h : Hub) (c : Nat) (queue : String) : Hub × Except Fault Nat :=
  if h.queues.contains queue then
    let stream := h.opened + 1
    let feed : Feed := ⟨c, stream⟩
    (dispatch { h with
      opened := stream
      streams := h.streams.insert stream []
      queues := h.queues.modify queue fun q => { q with feeds := q.feeds ++ [feed] } } queue,
      .ok stream)
  else (h, .error (notFound "queue" queue))

/-- Whether a consumer feeds a stream. -/
def isFed (h : Hub) (stream : Nat) : Bool :=
  h.queues.values.any fun q => q.feeds.any (·.stream == stream)

/-- Takes the next arrival from a stream. -/
def take (h : Hub) (stream : Nat) : Hub × Arrival :=
  match h.streams.get? stream with
  | some (d :: rest) => ({ h with streams := h.streams.insert stream rest }, .delivery d)
  | _ => (h, if h.isFed stream then .pending else .ended)

/-- Drops a stream, with what has not been received from it. -/
def leave (h : Hub) (stream : Nat) : Hub := { h with streams := h.streams.erase stream }

/-- Settles a delivery. A settlement that fails puts the message back. -/
def settle (h : Hub) (d : Delivery) (v : Verdict) : Hub × Except Fault Unit :=
  match h.network.fault? with
  | some f => (h, .error f)
  | none =>
    if 0 < h.failingSettlements then
      ({ h with failingSettlements := h.failingSettlements - 1 }.requeue d, .error .network)
    else
      let h := { h with settled := h.settled ++ [⟨d.message, v⟩] }
      (if v = .requeue then h.requeue d else h, .ok ())

end Hub

instance : Site Hub Nat where
  dial h := (h, { fault := h.network.fault? })
  connect h := h.openChannel
  ping h _ := ({ h with network := h.network.countPing }, { fault := h.network.fault? })
  close h c := { h with network := h.network.countClosed }.close c
  shut h := h
  ready h stream :=
    match (h.take stream).2 with
    | .pending => false
    | _ => true

instance : Channels Hub Nat where
  wall h := h.network.wall
  declareExchange h c x := h.serve c (h.declareExchange x, .ok ())
  deleteExchange h c name := h.serve c (h.removeExchange name, .ok ())
  declareQueue h c q := h.serve c (h.declareQueue q, .ok ())
  bindQueue h c queue b := h.serve c (h.bind queue b)
  deleteQueue h c name ifUnused ifEmpty := h.serve c (h.deleteQueue name ifUnused ifEmpty)
  publish h c exchange key body headers := h.serve c (h.publish exchange key body headers)
  consume h c queue := h.serve c (h.consume c queue)
  closeChannel h c := (h.close c, .ok ())
  isOpen h c := h.isOpen c
  take h stream := h.take stream
  leave h stream := h.leave stream
  settle h d v := h.settle d v

end Reconnect.Rehearsal
