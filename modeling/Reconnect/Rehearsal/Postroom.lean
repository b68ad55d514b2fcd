import Reconnect.Broker.Subscription
import Reconnect.Broker.TaskQueue
import Reconnect.Rehearsal.Cue
import Reconnect.Rehearsal.Hub

/-!
# Rehearsing the clients of a broker

The rehearsal runs clients against a broker in memory whose requests can be made to go wrong: each
request of a method first takes the next mishap that is in store for that method. Messages that
reach a handler are logged.
-/

namespace Reconnect.Rehearsal

open Broker

/-- What can be made to go wrong. -/
inductive Method where
  | declareExchange | deleteExchange | declareQueue | bindQueue | deleteQueue | publish | consume
  | closeChannel
  deriving DecidableEq, Repr

/-- How a request goes wrong. -/
inductive Mishap where
  /-- It does not. -/
  | none
  /-- It fails before it reaches the broker. -/
  | fault (f : Fault)
  /-- It is confirmed without reaching the broker. -/
  | confirm (c : Confirmation)
  /-- Its stream lets some deliveries through, then fails and ends. -/
  | cut (after : Nat) (f : Fault)
  deriving DecidableEq, Repr

/-- A message that reached a handler. -/
structure Receipt where
  reader : String
  message : Received
  deriving DecidableEq

/-- Something that was made, under a name. -/
inductive Thing where
  | topology (t : Topology)
  | publisher (client : BrokerClient)
  | announcer (place : Nat)
  | subscriber (place : Nat)
  | consumer (c : Consumer)
  | taskQueue (t : TaskQueue)
  | taskProducer (client : BrokerClient) (queue : String)
  | taskConsumer (c : Consumer) (queue : String)
  | channel (c : Nat)
  deriving DecidableEq, Repr

/-- A broker with mishaps in store, and what is known of its clients. -/
structure Postroom where
  hub : Hub := {}
  mishaps : Table Method (List Mishap) := .empty
  /-- How many deliveries a stream still lets through, and how it fails then. -/
  cuts : Table Nat (Nat × Fault) := .empty
  received : List Receipt := []
  clients : Table String BrokerClient := .empty
  things : Table String Thing := .empty

namespace Postroom

/-- Changes the broker. -/
def change (p : Postroom) (f : Hub → Hub) : Postroom := { p with hub := f p.hub }

/-- Takes the next mishap of a method. -/
def takeMishap (p : Postroom) (m : Method) : Postroom × Mishap :=
  match p.mishaps.get? m with
  | some (x :: rest) => ({ p with mishaps := p.mishaps.insert m rest }, x)
  | _ => (p, .none)

/-- Makes a request of a method, unless a mishap makes it fail. -/
def attempt {α : Type} (p : Postroom) (m : Method) (run : Hub → Hub × Except Fault α) :
    Postroom × Except Fault α :=
  let r := p.takeMishap m
  match r.2 with
  | .fault f => (r.1, .error f)
  | _ => let t := run r.1.hub; ({ r.1 with hub := t.1 }, t.2)

/-- Publishes a message, unless a mishap confirms it. -/
def publish (p : Postroom) (c : Nat) (exchange key : String) (body : Bytes) (headers : Headers) :
    Postroom × Except Fault Confirmation :=
  let r := p.takeMishap .publish
  match r.2 with
  | .fault f => (r.1, .error f)
  | .confirm x => (r.1, .ok x)
  | _ =>
    let t := Channels.publish r.1.hub c exchange key body headers
    ({ r.1 with hub := t.1 }, t.2)

/-- Opens a stream, which a mishap may cut. -/
def consume (p : Postroom) (c : Nat) (queue : String) : Postroom × Except Fault Nat :=
  let r := p.takeMishap .consume
  match r.2 with
  | .fault f => (r.1, .error f)
  | x =>
    let t := Channels.consume r.1.hub c queue
    let p := { r.1 with hub := t.1 }
    match x, t.2 with
    | .cut n f, .ok stream => ({ p with cuts := p.cuts.insert stream (n, f) }, .ok stream)
    | _, result => (p, result)

/-- Takes the next arrival from a stream. -/
def take (p : Postroom) (stream : Nat) : Postroom × Arrival :=
  match p.cuts.get? stream with
  | some (0, f) => (p.change (·.leave stream), .failure f)
  | some (n + 1, f) =>
    let r := p.hub.take stream
    let p := { p with hub := r.1 }
    match r.2 with
    | .delivery d => ({ p with cuts := p.cuts.insert stream (n, f) }, .delivery d)
    | .ended => (p, .failure f)
    | x => (p, x)
  | none => let r := p.hub.take stream; ({ p with hub := r.1 }, r.2)

end Postroom

instance : Site Postroom Nat where
  dial p := let r := Site.dial p.hub; ({ p with hub := r.1 }, r.2)
  connect p := let r := Site.connect p.hub; ({ p with hub := r.1 }, r.2)
  ping p c := let r := Site.ping p.hub c; ({ p with hub := r.1 }, r.2)
  close p c := p.change (Site.close · c)
  shut p := p
  ready p stream :=
    match (p.take stream).2 with
    | .pending => false
    | _ => true

instance : Channels Postroom Nat where
  wall p := p.hub.network.wall
  declareExchange p c x := p.attempt .declareExchange (Channels.declareExchange · c x)
  deleteExchange p c name := p.attempt .deleteExchange (Channels.deleteExchange · c name)
  declareQueue p c q := p.attempt .declareQueue (Channels.declareQueue · c q)
  bindQueue p c queue b := p.attempt .bindQueue (Channels.bindQueue · c queue b)
  deleteQueue p c name ifUnused ifEmpty :=
    p.attempt .deleteQueue (Channels.deleteQueue · c name ifUnused ifEmpty)
  publish p c exchange key body headers := p.publish c exchange key body headers
  consume p c queue := p.consume c queue
  closeChannel p c := p.attempt .closeChannel (Channels.closeChannel · c)
  isOpen p c := p.hub.isOpen c
  take p stream := p.take stream
  leave p stream := p.change (·.leave stream)
  settle p d v := let r := p.hub.settle d v; ({ p with hub := r.1 }, r.2)

/-- How a handler behaves: how long its calls take, and their verdicts. -/
structure Manner where
  /-- The first calls. -/
  first : List (Millis × Verdict) := []
  /-- All later calls. -/
  later : Millis × Verdict := (0, .accept)
  deriving DecidableEq, Repr, Inhabited

/-- A handler that logs every message under the name of its reader. -/
def handler (reader : String) (m : Manner) : Handler (World (Station Postroom) Nat) where
  handle w n message :=
    let p := w.site.store
    let p := { p with received := p.received ++ [⟨reader, message⟩] }
    (withStore w p, m.first.getD n m.later)

/-- How a thing is made, given a client. -/
inductive Blueprint where
  | client
  | topology
  | publisher
  | announcer
  | subscriber
  /-- A consumer, perhaps with the topology of a thing and with limits of its own. -/
  | consumer (topology : Option String) (limits : Option (Nat × Millis))
  | taskQueue (queue : String)
  | taskProducer (queue : String)
  | taskConsumer (queue : String) (topology : Option String)
  deriving DecidableEq, Repr

/-- A call in a rehearsal of a broker. -/
inductive PostCall where
  | errand (e : Errand Nat)
  /-- The registration of a client, with which a thing is made then. -/
  | making (e : Errand Nat) (client : BrokerClient) (name : String) (b : Blueprint)
  | arrange (a : Arrangement Nat)
  | publish (p : Publication Nat)
  | consume (reader : String) (m : Manner) (c : Consumption Nat)
  | listen (reader : String) (a : Arrangement Nat) (c : Consumption Nat)

/-- The result of an order in a rehearsal of a broker. -/
inductive PostResult where
  | done
  | noThing
  | client (c : BrokerClient)
  | ended (r : Except (MessagingError Fault) Unit)
  | published (r : Except (MessagingError Fault) String)
  /-- The answer to a request on a channel. -/
  | answered (r : Except Fault Unit)
  | confirmed (r : Except Fault Confirmation)
  | flag (b : Bool)
  /-- Whether the network is up. -/
  | up (b : Bool)
  | text (s : String)
  | subscription (queue : Option String) (id : Identifier)
  | messages (ms : List Message)
  | settled (ss : List Settlement)
  | received (rs : List Receipt)

/-- The world of a rehearsal of a broker. -/
abbrev PostWorld := World (Station Postroom) Nat

namespace PostWorld

/-- Changes the broker and what is known of its clients. -/
def change (w : PostWorld) (f : Postroom → Postroom) : PostWorld := withStore w (f w.site.store)

/-- Keeps a thing under a name. -/
def keep (w : PostWorld) (name : String) (t : Thing) : PostWorld :=
  change w fun p => { p with things := p.things.insert name t }

/-- The topology that a thing has. -/
def topology? (w : PostWorld) (name : String) : Option Topology :=
  match w.site.store.things.get? name with
  | some (.topology t) => some t
  | some (.taskQueue t) => some t.topology
  | _ => none

/-- Makes a thing with a client. -/
def make (w : PostWorld) (client : BrokerClient) (name : String) : Blueprint → PostWorld × PostResult
  | .client =>
    (change w fun p => { p with clients := p.clients.insert name client }, .client client)
  | .topology =>
    let r := addTopology w client
    (keep r.1 name (.topology r.2), .done)
  | .publisher => (keep w name (.publisher client), .done)
  | .announcer =>
    let r := addTopology w client
    let site := r.1.site
    let w := { r.1 with site := { site with announcers := site.announcers ++ [{ topology := r.2 }] } }
    (keep w name (.announcer site.announcers.length), .done)
  | .subscriber =>
    let r := addTopology w client
    let t := r.1.draw
    let site := t.1.site
    let subscriber : Subscriber := { topology := r.2, id := t.2 }
    let w := { t.1 with site := { site with subscribers := site.subscribers ++ [subscriber] } }
    (keep w name (.subscriber site.subscribers.length), .done)
  | .consumer topology limits =>
    let c : Consumer := { client, topology := topology.bind (topology? w) }
    let c := match limits with
      | some (capacity, timeToLive) => { c with capacity, timeToLive }
      | none => c
    (keep w name (.consumer c), .done)
  | .taskQueue queue =>
    let r := addTopology w client
    (keep r.1 name (.taskQueue ⟨r.2, queue⟩), .done)
  | .taskProducer queue => (keep w name (.taskProducer client queue), .done)
  | .taskConsumer queue topology =>
    (keep w name (.taskConsumer { client, topology := topology.bind (topology? w) } queue), .done)

end PostWorld

/-- How the calls of a rehearsal of a broker run. -/
def postMachine : Machine (Station Postroom) Nat PostCall PostResult where
  step w opens
    | .errand e =>
      let r := e.step w
      match r.2 with
      | .waits e => (r.1, .waits (.errand e))
      | .moves e => (r.1, .moves (.errand e))
      | .ends _ => (r.1, .ends .done)
    | .making e client name b =>
      let r := e.step w
      match r.2 with
      | .waits e => (r.1, .waits (.making e client name b))
      | .moves e => (r.1, .moves (.making e client name b))
      | .ends _ => let t := PostWorld.make r.1 client name b; (t.1, .ends t.2)
    | .arrange a =>
      let r := a.step w opens
      match r.2 with
      | .waits a => (r.1, .waits (.arrange a))
      | .moves a => (r.1, .moves (.arrange a))
      | .ends x => (r.1, .ends (.ended x))
    | .publish p =>
      let r := p.step w opens
      match r.2 with
      | .waits p => (r.1, .waits (.publish p))
      | .moves p => (r.1, .moves (.publish p))
      | .ends x => (r.1, .ends (.published x))
    | .consume reader m c =>
      let r := c.step (handler reader m) w opens
      match r.2 with
      | .waits c => (r.1, .waits (.consume reader m c))
      | .moves c => (r.1, .moves (.consume reader m c))
      | .ends x => (r.1, .ends (.ended x))
    | .listen reader a c =>
      let r := a.step w opens
      match r.2 with
      | .waits a => (r.1, .waits (.listen reader a c))
      | .moves a => (r.1, .moves (.listen reader a c))
      | .ends (.ok _) => (r.1, .moves (.consume reader {} c))
      | .ends (.error e) => (r.1, .ends (.ended (.error e)))
  wakes w
    | .errand e | .making e _ _ _ => e.wakes w
    | .arrange a | .listen _ a _ => a.wakes (S := Postroom)
    | .publish p => p.wakes (S := Postroom)
    | .consume _ _ c => c.wakes w
  holds
    | .errand _ | .making _ _ _ _ => true
    | .arrange a | .listen _ a _ => a.holds
    | .publish p => p.holds
    | .consume _ _ c => c.holds
  abandon w
    | .consume _ _ c => c.abandon w
    | _ => w
  recovery e := .errand e

/-- What a thing is told to do. A topic that is not given is the main topic. -/
inductive Telling where
  | declare (d : Declaration)
  | delete (queue : Bool) (name : String) (ifUnused ifEmpty : Bool)
  | redeclare
  /-- Tell whether the client has an open channel. -/
  | connected
  | bind (queue : String) (b : QueueBinding)
  | publish (exchange key : String) (body : Bytes) (headers : Headers)
  | consume (queue : String) (m : Manner) (context : String)
  | close
  | isOpen
  | setMainTopic (topic : String)
  | declareTopic (topic : Option String)
  | removeTopic (topic : Option String)
  | notifyTopic (topic : Option String) (body : Bytes)
  | subscribe (topic : Option String)
  | unsubscribe (topic : Option String)
  | queueName (topic : String)
  | listen (topic : Option String) (context : String)
  | declareTasks
  | removeTasks
  | queue
  | push (body : Bytes)
  | consumeTasks (delay : Millis) (context : String)

/-- An order in a rehearsal of a broker. -/
inductive PostOrder where
  /-- Make a thing, with the client of a name if there is one. -/
  | make (name : String) (client : Option String) (b : Blueprint)
  | openChannel (name : String)
  | tell (name : String) (t : Telling)
  | online (b : Bool)
  | outage (amount : Millis)
  | report
  | destroy
  | inject (queue : String) (body : Bytes) (id? : Option String)
  | failSettlements (count : Nat)
  | dropConsumers
  | resetTransient
  | mishaps (t : Table Method (List Mishap))
  | queued (queue : String)
  | settled
  /-- Take the log of messages that reached handlers, by reader. -/
  | received

/-- A rehearsal of a broker. -/
abbrev PostSession := Session (Station Postroom) Nat PostCall PostResult

namespace PostSession

/-- What an order comes to. -/
abbrev Outcome := PostWorld × (PostResult ⊕ PostCall)

/-- A result or an error of messaging, before a call can begin. -/
def orFail (w : PostWorld) {α : Type} (call : α → PostCall) :
    Except (MessagingError Fault) α → Outcome
  | .ok a => (w, .inr (call a))
  | .error e => (w, .inl (.ended (.error e)))

/-- Tells a channel to do something. -/
def tellChannel (w : PostWorld) (c : Nat) (t : Telling) : Outcome :=
  let p := w.site.store
  let answer := fun (r : Postroom × Except Fault Unit) =>
    ((withStore w r.1, .inl (.answered r.2)) : Outcome)
  match t with
  | .declare (.exchange x) => answer (Channels.declareExchange p c x)
  | .declare (.queue q _) => answer (Channels.declareQueue p c q)
  | .delete false name _ _ => answer (Channels.deleteExchange p c name)
  | .delete true name ifUnused ifEmpty => answer (Channels.deleteQueue p c name ifUnused ifEmpty)
  | .bind queue b => answer (Channels.bindQueue p c queue b)
  | .publish exchange key body headers =>
    let r := Channels.publish p c exchange key body headers
    (withStore w r.1, .inl (.confirmed r.2))
  | .consume queue _ _ =>
    let r := Channels.consume p c queue
    match r.2 with
    | .ok stream => answer (Channels.leave r.1 stream, .ok ())
    | .error f => answer (r.1, .error f)
  | .close => answer (Channels.closeChannel p c)
  | .isOpen => (w, .inl (.flag (Channels.isOpen p c)))
  | _ => (w, .inl .noThing)

/-- Tells a publisher of topics to do something. -/
def tellAnnouncer (w : PostWorld) (i : Nat) (t : Telling) : Outcome :=
  let a := w.site.announcers.getD i default
  let set := fun (a : Announcer) =>
    ({ w with site := { w.site with announcers := w.site.announcers.set i a } } : PostWorld)
  let topic := fun (given : Option String) => requireTopic (given.or a.mainTopic)
  match t with
  | .setMainTopic topic => (set { a with mainTopic := some topic }, .inl .done)
  | .declareTopic given => orFail w (.arrange ∘ a.declareTopic) (topic given)
  | .removeTopic (some topic) => (w, .inr (.arrange (a.removeTopic topic)))
  | .removeTopic none => let r := a.removeMainTopic; orFail (set r.1) .arrange r.2
  | .notifyTopic given body => orFail w (.publish ∘ (a.notify · body)) (topic given)
  | _ => (w, .inl .noThing)

/-- Tells a subscriber to topics to do something. -/
def tellSubscriber (w : PostWorld) (name : String) (i : Nat) (t : Telling) : Outcome :=
  let s := w.site.subscribers.getD i default
  let set := fun (s : Subscriber) =>
    ({ w with site := { w.site with subscribers := w.site.subscribers.set i s } } : PostWorld)
  match t with
  | .setMainTopic topic => (set { s with mainTopic := some topic }, .inl .done)
  | .subscribe given =>
    match requireTopic (given.or s.mainTopic) with
    | .ok topic => let r := s.subscribe topic; (set r.1, .inr (.arrange r.2))
    | .error e => (w, .inl (.ended (.error e)))
  | .unsubscribe (some topic) =>
    let r := s.unsubscribe topic
    (set r.1, .inr (.arrange r.2))
  | .unsubscribe none => let r := s.unsubscribeMainTopic; orFail (set r.1) .arrange r.2
  | .queueName topic => (w, .inl (.subscription (s.queue? topic) s.id))
  | .listen given context =>
    match requireTopic (given.or s.mainTopic) with
    | .ok topic => orFail w (fun r => .listen name r.1 r.2) (s.listen topic context)
    | .error e => (w, .inl (.ended (.error e)))
  | _ => (w, .inl .noThing)

/-- Tells a thing to do something. -/
def tell (w : PostWorld) (name : String) (t : Telling) : Thing → Outcome
  | .channel c => tellChannel w c t
  | .announcer i => tellAnnouncer w i t
  | .subscriber i => tellSubscriber w name i t
  | .topology topology =>
    let arrange := fun (s : TopologyStep) =>
      ((w, .inr (.arrange { topology, steps := [s] })) : Outcome)
    match t with
    | .declare d => arrange (.declare d)
    | .delete queue name _ _ => arrange (.delete queue name)
    | .redeclare => (w, .inr (.arrange (.restore w topology)))
    | .connected =>
      let c := w.connection? topology.client.client.id
      (w, .inl (.flag (c.any (Channels.isOpen w.site.store))))
    | _ => (w, .inl .noThing)
  | .publisher client =>
    match t with
    | .publish exchange key body headers =>
      (w, .inr (.publish { client, exchange, key, body, headers }))
    | _ => (w, .inl .noThing)
  | .consumer consumer =>
    match t with
    | .consume queue m context => (w, .inr (.consume name m { consumer, context, queue }))
    | _ => (w, .inl .noThing)
  | .taskQueue tasks =>
    match t with
    | .declareTasks => (w, .inr (.arrange tasks.declare))
    | .removeTasks => (w, .inr (.arrange tasks.remove))
    | .redeclare => (w, .inr (.arrange (.restore w tasks.topology)))
    | .queue => (w, .inl (.text tasks.queue))
    | _ => (w, .inl .noThing)
  | .taskProducer client queue =>
    match t with
    | .push body => (w, .inr (.publish (pushTask client queue body)))
    | _ => (w, .inl .noThing)
  | .taskConsumer consumer queue =>
    match t with
    | .consumeTasks delay context =>
      (w, .inr (.consume name { later := (delay, .accept) } { consumer, context, queue }))
    | _ => (w, .inl .noThing)

/-- What an order comes to. -/
def obeyIn (timeouts : Timeouts) (declareTimeout : Millis) (w : PostWorld) (order : PostOrder) :
    Outcome :=
  let p := w.site.store
  let onHub := fun (f : Hub → Hub) => ((PostWorld.change w (·.change f), .inl .done) : Outcome)
  match order with
  | .make name client b =>
    match client.bind p.clients.get? with
    | some c => let r := PostWorld.make w c name b; (r.1, .inl r.2)
    | none =>
      let r := w.draw
      let client := ⟨.ofTimeouts r.2 timeouts w.context, declareTimeout⟩
      (r.1, .inr (.making (.ready (.registerOpen r.2)) client name b))
  | .openChannel name =>
    match p.hub.network.fault? with
    | some f => (w, .inl (.answered (.error f)))
    | none =>
      let r := p.hub.openChannel
      (PostWorld.keep (PostWorld.change w ({ · with hub := r.1 })) name (.channel r.2), .inl .done)
  | .tell name t =>
    match p.things.get? name with
    | some thing => tell w name t thing
    | none => (w, .inl .noThing)
  | .online b => onHub fun h => { h with network := h.network.setOnline b }
  | .outage amount =>
    let h := { p.hub with network := p.hub.network.failFor amount }
    (PostWorld.change w ({ · with hub := h }), .inl (.up h.network.isUp))
  | .report => (w.report, .inl .done)
  | .destroy => (w, .inr (.errand (.ready (.removeAll true))))
  | .inject queue body id? => onHub (·.inject queue body id?)
  | .failSettlements count => onHub fun h => { h with failingSettlements := count }
  | .dropConsumers => onHub Hub.dropConsumers
  | .resetTransient => onHub Hub.resetTransient
  | .mishaps t => (PostWorld.change w ({ · with mishaps := t }), .inl .done)
  | .queued queue => (w, .inl (.messages (p.hub.waiting queue)))
  | .settled => (w, .inl (.settled p.hub.settled))
  | .received =>
    let sorted := p.received.mergeSort fun a b => a.reader ≤ b.reader
    (PostWorld.change w ({ · with received := [] }), .inl (.received sorted))

/-- What an order comes to. -/
def obey (timeouts : Timeouts) (declareTimeout : Millis) (s : PostSession) (order : PostOrder) :
    PostSession × (PostResult ⊕ PostCall) :=
  let r := obeyIn timeouts declareTimeout s.world order
  ({ s with world := r.1 }, r.2)

end PostSession

end Reconnect.Rehearsal
