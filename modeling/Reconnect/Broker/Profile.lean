import Reconnect.Endpoint
import Reconnect.Timeouts

/-!
# How a message broker is reached

The address of a broker is the explicit one if it is given; otherwise it is made of the endpoint,
the virtual host and the heartbeat in whole seconds.
-/

namespace Reconnect.Broker

/-- The name under which the broker's errors are reported. -/
def driverName : String := "rabbitmq"

/-- How a message broker is reached. -/
structure Profile where
  timeouts : Timeouts := {}
  endpoint : Endpoint := ⟨"127.0.0.1", 5672, none, none⟩
  address : Option String := none
  virtualHost : String := "/"
  heartbeat : Millis := 20000
  /-- Bounds each declaration or deletion. -/
  declareTimeout : Millis := 15000
  /-- How many unsettled deliveries a channel may hold, zero for no limit. -/
  prefetchCount : Nat := 1
  /-- Whether the broker confirms published messages. -/
  confirmMode : Bool := true
  deriving DecidableEq, Repr, Inhabited

/-- The virtual host as the path of an address, with its slashes escaped. The root is empty. -/
def hostPath (virtualHost : String) : String :=
  if virtualHost = "/" then ""
  else
    String.ofList (virtualHost.toList.flatMap fun c => if c = '/' then ['%', '2', 'f'] else [c])

/-- The address of the broker. -/
def Profile.uri (p : Profile) : Except ProfileError String :=
  match p.address with
  | some address => (checkUri driverName address ["amqp", "amqps"]).map fun _ => address
  | none =>
    (p.endpoint.uri driverName "amqp" (hostPath p.virtualHost)).map fun uri =>
      uri ++ "?heartbeat=" ++ toString (p.heartbeat / 1000)

end Reconnect.Broker
