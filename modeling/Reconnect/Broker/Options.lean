import Reconnect.Broker.Headers
import Reconnect.Json.Value

/-!
# What is declared at a broker

An exchange or a queue either is persistent, then it survives a restart of the broker, or it is
removed by the broker once nobody uses it.
-/

namespace Reconnect.Broker

/-- How an exchange chooses the queues of a message. -/
inductive ExchangeKind where
  | direct
  | fanout
  | topic
  deriving DecidableEq, Repr, Inhabited

/-- The name of a kind in settings and requests. -/
def ExchangeKind.name : ExchangeKind → String
  | .direct => "direct"
  | .fanout => "fanout"
  | .topic => "topic"

/-- The kind of a name. -/
def ExchangeKind.ofName? (s : String) : Option ExchangeKind :=
  [ExchangeKind.direct, .fanout, .topic].find? fun k => k.name == s

/-- The name of a verdict. -/
def Verdict.name : Verdict → String
  | .accept => "Accept"
  | .requeue => "Requeue"
  | .reject => "Reject"

/-- The verdict of a name. -/
def Verdict.ofName? (s : String) : Option Verdict :=
  [Verdict.accept, .requeue, .reject].find? fun v => v.name == s

/-- The name that a JSON value chooses: a text, or an object whose only entry is that name with
the value `null`. -/
def chosenName? : Json → Option String
  | .string us => Json.unitsText? us
  | .object [(us, .null)] => Json.unitsText? us
  | _ => none

/-- What an exchange is declared with. -/
structure ExchangeOptions where
  name : String
  kind : ExchangeKind
  /-- Survives a restart of the broker. -/
  durable : Bool
  /-- Removed once the last binding is gone. -/
  autoDelete : Bool
  deriving DecidableEq, Repr, Inhabited

/-- The options of an exchange that is persistent or not. -/
def ExchangeOptions.ofPersistence (name : String) (kind : ExchangeKind) (persistent : Bool) :
    ExchangeOptions :=
  ⟨name, kind, persistent, !persistent⟩

/-- What a queue is declared with. -/
structure QueueOptions where
  name : String
  /-- Survives a restart of the broker. -/
  durable : Bool
  /-- Removed once the last consumer is gone. -/
  autoDelete : Bool
  /-- Used by the declaring connection only. -/
  exclusive : Bool
  deriving DecidableEq, Repr, Inhabited

/-- The options of a queue that is persistent or not. -/
def QueueOptions.ofPersistence (name : String) (persistent exclusive : Bool) : QueueOptions :=
  ⟨name, persistent, !persistent, exclusive⟩

/-- A routing key at an exchange from which a queue takes its messages. -/
structure QueueBinding where
  routingKey : String
  exchange : String
  deriving DecidableEq, Repr, Inhabited

end Reconnect.Broker
