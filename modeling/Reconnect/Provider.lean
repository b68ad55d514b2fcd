import Reconnect.Broker.Station
import Reconnect.Cache.Address
import Reconnect.Cache.LockCall
import Reconnect.Documents.Profile
import Reconnect.Settings.Basic

/-!
# The provider of an application

A provider holds what an application needs to reach its stores. A store is held from the moment at
which the first valid profile is given for it, and keeps that profile; whatever is given later is
ignored. A profile that is not valid changes nothing.

All stores share one context. Shutting the provider down cancels it and takes the connections of
all clients away, but what is held stays held.
-/

namespace Reconnect

/-- A store that is held: how it is reached, and who supervises its connections. -/
structure Holding (P C : Type) where
  profile : P
  supervisor : Supervisor C := {}
  deriving DecidableEq, Repr, Inhabited

namespace Holding

variable {P C : Type}

/-- What is held once a profile is given, of which it is known whether it is valid. -/
def offer (held : Option (Holding P C)) (profile : P) (valid : Except ProfileError Unit) :
    Except ProfileError (Holding P C) :=
  match held with
  | some h => .ok h
  | none => valid.map fun _ => { profile }

/-- Registers a client, whose first connection was opened or not. -/
def enter (h : Holding P C) (id : Identifier) (opened : Option C) : Holding P C :=
  let t := h.supervisor.resume (.registerEnter id opened) .go
  match t.next with
  | some stage => { h with supervisor := (t.supervisor.resume stage .go).supervisor }
  | none => { h with supervisor := t.supervisor }

/-- Takes the connections of all clients away. -/
def dismiss (h : Holding P C) : Holding P C :=
  { h with supervisor := (h.supervisor.resume (.removeAll true) .go).supervisor }

end Holding

/-- The provider of an application. -/
structure Provider (C : Type) where
  /-- Whether the provider has been shut down. -/
  canceled : Bool := false
  /-- How many identifiers have been drawn. -/
  drawn : Nat := 0
  broker : Option (Holding Broker.Profile C) := none
  cache : Option (Holding Cache.Profile C) := none
  documents : Option (Holding Documents.Profile C) := none
  deriving DecidableEq, Repr, Inhabited

namespace Provider

variable {C : Type}

/-- The context that the stores share. -/
def context : String := "root"

/-- Gives a profile of the broker. -/
def beginBroker (p : Provider C) (profile : Broker.Profile) :
    Provider C × Except ProfileError Unit :=
  match Holding.offer p.broker profile (profile.uri.map fun _ => ()) with
  | .ok h => ({ p with broker := some h }, .ok ())
  | .error e => (p, .error e)

/-- Gives a profile of the cache store. -/
def beginCache (p : Provider C) (profile : Cache.Profile) :
    Provider C × Except ProfileError Unit :=
  match Holding.offer p.cache profile (profile.login.map fun _ => ()) with
  | .ok h => ({ p with cache := some h }, .ok ())
  | .error e => (p, .error e)

/-- Gives a profile of the document store. -/
def beginDocuments (p : Provider C) (profile : Documents.Profile) :
    Provider C × Except ProfileError Unit :=
  match Holding.offer p.documents profile (profile.uri.map fun _ => ()) with
  | .ok h => ({ p with documents := some h }, .ok ())
  | .error e => (p, .error e)

/-- Gives the profiles of all stores, in the order broker, cache store, document store, and stops
at the first one that is not valid. -/
def beginAll (p : Provider C) (s : Settings) : Provider C × Except ProfileError Unit :=
  match p.beginBroker s.broker.profile with
  | (p, .ok _) =>
    match p.beginCache s.cache.profile with
    | (p, .ok _) => p.beginDocuments s.documents.profile
    | r => r
  | r => r

/-- The client that is made next, with the timeouts of a profile. -/
def nextClient (p : Provider C) (t : Timeouts) : Client := .ofTimeouts ⟨p.drawn + 1⟩ t context

/-- Makes a client of the broker, if it is held. -/
def brokerClient (p : Provider C) (opened : Option C) : Provider C × Option Broker.BrokerClient :=
  match p.broker with
  | none => (p, none)
  | some h =>
    let client := p.nextClient h.profile.timeouts
    ({ p with drawn := p.drawn + 1, broker := some (h.enter client.id opened) },
      some ⟨client, h.profile.declareTimeout⟩)

/-- Makes a client of the cache store, if it is held. -/
def cacheClient (p : Provider C) (opened : Option C) : Provider C × Option Cache.LockClient :=
  match p.cache with
  | none => (p, none)
  | some h =>
    let client := p.nextClient h.profile.timeouts
    ({ p with drawn := p.drawn + 1, cache := some (h.enter client.id opened) },
      some { client, settings := h.profile.lock })

/-- Makes a client of the document store, if it is held. -/
def documentClient (p : Provider C) (opened : Option C) : Provider C × Option Client :=
  match p.documents with
  | none => (p, none)
  | some h =>
    let client := p.nextClient h.profile.timeouts
    ({ p with drawn := p.drawn + 1, documents := some (h.enter client.id opened) }, some client)

/-- Shuts the provider down. -/
def shutDown (p : Provider C) : Provider C :=
  { p with
    canceled := true
    broker := p.broker.map Holding.dismiss
    cache := p.cache.map Holding.dismiss
    documents := p.documents.map Holding.dismiss }

end Provider

end Reconnect
