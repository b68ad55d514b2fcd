import Reconnect.Broker.Station

/-!
# Publishing

Every message is published under a name: the one among its headers, or else a fresh one. It is the
same in all attempts. A message that no queue takes is an error.
-/

namespace Reconnect.Broker

/-- A message on its way to an exchange. -/
structure Publication (C : Type) where
  client : BrokerClient
  exchange : String
  key : String
  body : Bytes
  headers : Headers
  /-- The name of the message and the execution of the request, once it has begun. -/
  sending : Option (String × Execution C) := none
  deriving DecidableEq

namespace Publication

variable {S C : Type} [Site S C] [Channels S C]

/-- The request of a publication under a name. -/
def request (p : Publication C) (id : String) : Request :=
  .publish p.exchange p.key p.body (p.headers.insert messageIdHeader id)

/-- What a confirmation means to the publisher. -/
def verdict (p : Publication C) (id : String) :
    Except (CallError Fault) (Reply C) → Except (MessagingError Fault) String
  | .error e => .error (.client e)
  | .ok (.confirmed .returned) => .error (.unroutable p.exchange p.key)
  | .ok (.confirmed .refused) => .error (.nacked p.exchange)
  | .ok _ => .ok id

/-- One step of a publication. -/
def step (w : World (Station S) C) (opens : Bool) (p : Publication C) :
    World (Station S) C × Step (Publication C) (Except (MessagingError Fault) String) :=
  match p.sending with
  | none =>
    let start := fun (id : String) =>
      { p with sending := some (id, .start p.client.client p.client.client.writeTimeout) }
    match p.headers.get? messageIdHeader with
    | some id => (w, .moves (start id))
    | none => let r := w.draw; (r.1, .moves (start r.2.text))
  | some (id, e) =>
    let r := e.step (asking (p.request id)) w opens
    match r.2 with
    | .waits e => (r.1, .waits { p with sending := some (id, e) })
    | .moves e => (r.1, .moves { p with sending := some (id, e) })
    | .ends o => (r.1, .ends (p.verdict id o.result))

/-- What a publication waits for. -/
def wakes (p : Publication C) : List Event :=
  p.sending.toList.flatMap fun s => s.2.wakes (asking (S := S) (p.request s.1))

omit [Site S C] [Channels S C] in
/-- Whether a publication holds the supervisor. -/
def holds (p : Publication C) : Bool := p.sending.any fun s => s.2.holds

end Publication

end Reconnect.Broker
