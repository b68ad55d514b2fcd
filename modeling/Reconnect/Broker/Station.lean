import Reconnect.Broker.Channel
import Reconnect.Table

/-!
# What the clients of a broker keep

Clients of a broker remember what they declared, so that it can be declared again after the broker
has lost it. Publishers and subscribers of topics also remember their main topic, and subscribers
the queue of each topic. A station is a site together with all that is remembered there.
-/

namespace Reconnect.Broker

/-- A client of a broker. -/
structure BrokerClient where
  client : Client
  /-- Bounds each declaration or deletion. -/
  declareTimeout : Millis
  deriving DecidableEq, Repr, Inhabited

/-- Something declared at a broker. -/
inductive Declaration where
  | exchange (x : ExchangeOptions)
  | queue (q : QueueOptions) (bindings : List QueueBinding)
  deriving DecidableEq, Repr

namespace Declaration

/-- The name that is declared. -/
def name : Declaration → String
  | .exchange x => x.name
  | .queue q _ => q.name

/-- Whether a queue is declared. -/
def isQueue : Declaration → Bool
  | .exchange _ => false
  | .queue _ _ => true

/-- Whether a declaration is that of an exchange or a queue with the given name. -/
def concerns (d : Declaration) (queue : Bool) (name : String) : Bool :=
  d.isQueue == queue && d.name == name

/-- The request that declares it. -/
def request : Declaration → Request
  | .exchange x => .declareExchange x
  | .queue q bindings => .declareQueue q bindings

end Declaration

/-- The declarations that a topology remembers, in the order in which they were last made. -/
abbrev Record := List Declaration

namespace Record

/-- Forgets an exchange or a queue. -/
def forget (r : Record) (queue : Bool) (name : String) : Record :=
  r.filter fun d => !d.concerns queue name

/-- Remembers a declaration in place of an earlier one of the same name. -/
def remember (r : Record) (d : Declaration) : Record := forget r d.isQueue d.name ++ [d]

end Record

/-- A topology: a client and the place of the record of what it declared. -/
structure Topology where
  client : BrokerClient
  record : Nat
  deriving DecidableEq, Repr, Inhabited

/-- A publisher of topics. -/
structure Announcer where
  topology : Topology
  mainTopic : Option String := none
  deriving DecidableEq, Repr, Inhabited

/-- A subscriber to topics. -/
structure Subscriber where
  topology : Topology
  id : Identifier
  /-- The queue of each topic. -/
  queues : Table String String := .empty
  mainTopic : Option String := none
  deriving DecidableEq, Repr, Inhabited

/-- A site together with what is remembered there. -/
structure Station (S : Type) where
  store : S
  records : List Record := []
  announcers : List Announcer := []
  subscribers : List Subscriber := []

instance {S C : Type} [Site S C] : Site (Station S) C where
  dial s := let r := Site.dial s.store; ({ s with store := r.1 }, r.2)
  connect s := let r := Site.connect s.store; ({ s with store := r.1 }, r.2)
  ping s c := let r := Site.ping s.store c; ({ s with store := r.1 }, r.2)
  close s c := { s with store := Site.close s.store c }
  shut s := { s with store := Site.shut s.store }
  ready s n := Site.ready s.store n

variable {S C : Type}

/-- Changes the store of a station. -/
def withStore (w : World (Station S) C) (store : S) : World (Station S) C :=
  { w with site := { w.site with store } }

/-- The record in a place. -/
def recordAt (w : World (Station S) C) (i : Nat) : Record := w.site.records.getD i []

/-- Changes the record in a place. -/
def changeRecord (w : World (Station S) C) (i : Nat) (f : Record → Record) :
    World (Station S) C :=
  { w with site := { w.site with records := w.site.records.modify i f } }

/-- A topology with an empty record. -/
def addTopology (w : World (Station S) C) (client : BrokerClient) :
    World (Station S) C × Topology :=
  ({ w with site := { w.site with records := w.site.records ++ [[]] } },
    ⟨client, w.site.records.length⟩)

/-- The operation that makes a request. -/
def asking [Channels S C] (r : Request) : Operation (World (Station S) C) C C (Reply C) :=
  .atOnce fun w c =>
    let t := request w.site.store c r
    (withStore w t.1, t.2)

end Reconnect.Broker
