import Reconnect.Json.Writer
import Reconnect.Settings.Basic

/-!
# Writing settings

Every field is written, except an address and an application name that are not set.
-/

namespace Reconnect

/-- The entry of a text that may be absent. -/
def optionalField (name : String) (value : Option String) : List (String × Json) :=
  (value.map fun s => (name, Json.ofText s)).toList

/-- The record of the durations of a connection. -/
def Timeouts.toJson (t : Timeouts) : Json := .ofFields [
  ("connection_timeout_ms", .ofNat t.connection),
  ("connection_retry_wait_ms", .ofNat t.connectionRetryWait),
  ("read_timeout_ms", .ofNat t.read),
  ("write_timeout_ms", .ofNat t.write),
  ("operation_retry_wait_ms", .ofNat t.operationRetryWait)]

/-- The fields that every section starts with. -/
def addressFields (host : String) (port : Nat) (username password : String)
    (uri : Option String) : List (String × Json) :=
  [("host", .ofText host), ("port", .ofNat port), ("username", .ofText username),
    ("password", .ofText password)] ++ optionalField "uri" uri

/-- The record of the broker settings. -/
def BrokerSettings.toJson (s : BrokerSettings) : Json := .ofFields <|
  addressFields s.host s.port s.username s.password s.uri ++ [
    ("vhost", .ofText s.virtualHost),
    ("heartbeat_seconds", .ofNat s.heartbeatSeconds),
    ("declare_timeout_ms", .ofNat s.declareTimeout),
    ("prefetch_count", .ofNat s.prefetchCount),
    ("timeouts", s.timeouts.toJson)]

/-- The record of the timing of locks. -/
def Cache.LockSettings.toJson (s : Cache.LockSettings) : Json := .ofFields [
  ("acquire_timeout_ms", .ofNat s.acquireTimeout),
  ("retry_wait_min_ms", .ofNat s.retryWaitMin),
  ("retry_wait_max_ms", .ofNat s.retryWaitMax),
  ("ttl_ms", .ofNat s.ttl)]

/-- The record of the cache store settings. -/
def CacheSettings.toJson (s : CacheSettings) : Json := .ofFields <|
  addressFields s.host s.port s.username s.password s.uri ++ [
    ("database", .ofNat s.database), ("lock", s.lock.toJson), ("timeouts", s.timeouts.toJson)]

/-- The record of the document store settings. -/
def DocumentSettings.toJson (s : DocumentSettings) : Json := .ofFields <|
  addressFields s.host s.port s.username s.password s.uri ++ optionalField "app_name" s.appName
    ++ [("timeouts", s.timeouts.toJson)]

/-- The record of the settings. -/
def Settings.toJson (s : Settings) : Json := .ofFields [
  ("rabbitmq", s.broker.toJson), ("redis", s.cache.toJson), ("mongodb", s.documents.toJson)]

/-- The text of the settings. -/
def Settings.text (s : Settings) : String := Json.write s.toJson

end Reconnect
