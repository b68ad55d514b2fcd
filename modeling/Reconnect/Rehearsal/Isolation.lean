import Reconnect.NetworkFailure

/-!
# Rehearsing without a network

Where the system refuses every socket, no connection is ever opened. An attempt to open one fails
at once, and each kind of store tells in its own way whether that is a failure of the network; who
asks for anything else finds no connection.
-/

namespace Reconnect.Rehearsal

/-- The failure of a call that asks for a socket. -/
def refusedSocket : SystemFailure := .other "PermissionDenied"

/-- The kinds of stores. -/
inductive StoreKind where
  | broker | cache | documents
  deriving DecidableEq, Repr

/-- Whether a refused socket counts as a failure of the network. A document store looks for a
server again and again, and only tells that there was none. -/
def StoreKind.blamesNetwork : StoreKind → Bool
  | .broker => (BrokerFailure.system refusedSocket none).isNetwork
  | .cache => (CacheFailure.system refusedSocket none).isNetwork
  | .documents => DocumentFailure.unreachable.isNetwork

/-- What is asked of a store. -/
inductive Contact where
  /-- That a connection is opened. -/
  | connect
  /-- That the transport which the connections share is closed. -/
  | shut
  /-- Anything that needs a connection. -/
  | use
  deriving DecidableEq, Repr

/-- What comes of it. -/
inductive Isolated where
  | done
  | unconnected
  | failed (network : Bool)
  deriving DecidableEq, Repr

/-- What comes of asking a store for something. Closing a transport that was never opened is no
work at all. -/
def StoreKind.answer (k : StoreKind) : Contact → Isolated
  | .connect => .failed k.blamesNetwork
  | .shut => .done
  | .use => .unconnected

end Reconnect.Rehearsal
