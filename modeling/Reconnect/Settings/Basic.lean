import Reconnect.Broker.Profile
import Reconnect.Cache.Profile
import Reconnect.Documents.Profile

/-!
# Settings

The settings of an application hold one section a backing store. Each section gives rise to the
profile by which its store is reached; whatever a section leaves out has a default.
-/

namespace Reconnect

/-- The settings of the message broker. -/
structure BrokerSettings where
  host : String := "127.0.0.1"
  port : Nat := 5672
  username : String := ""
  password : String := ""
  /-- A whole address, which goes before host and port. -/
  uri : Option String := none
  virtualHost : String := "/"
  heartbeatSeconds : Nat := 20
  declareTimeout : Millis := 15000
  prefetchCount : Nat := 1
  timeouts : Timeouts := {}
  deriving DecidableEq, Repr, Inhabited

/-- The settings of the cache store. -/
structure CacheSettings where
  host : String := "127.0.0.1"
  port : Nat := 6379
  username : String := ""
  password : String := ""
  /-- A whole address, which goes before host and port. -/
  uri : Option String := none
  database : Nat := 0
  lock : Cache.LockSettings := {}
  timeouts : Timeouts := {}
  deriving DecidableEq, Repr, Inhabited

/-- The settings of the document store. -/
structure DocumentSettings where
  host : String := "127.0.0.1"
  port : Nat := 27017
  username : String := ""
  password : String := ""
  /-- A whole address, which goes before host and port. -/
  uri : Option String := none
  appName : Option String := none
  timeouts : Timeouts := {}
  deriving DecidableEq, Repr, Inhabited

/-- The settings of an application. -/
structure Settings where
  broker : BrokerSettings := {}
  cache : CacheSettings := {}
  documents : DocumentSettings := {}
  deriving DecidableEq, Repr, Inhabited

/-- The endpoint of a section, with credentials if it names any. -/
def sectionEndpoint (host : String) (port : Nat) (username password : String) : Endpoint :=
  let plain : Endpoint := ⟨host, port, none, none⟩
  if username = "" ∧ password = "" then plain else plain.withCredentials username password

/-- How the broker of a section is reached. -/
def BrokerSettings.profile (s : BrokerSettings) : Broker.Profile where
  timeouts := s.timeouts
  endpoint := sectionEndpoint s.host s.port s.username s.password
  address := s.uri
  virtualHost := s.virtualHost
  heartbeat := s.heartbeatSeconds * 1000
  declareTimeout := s.declareTimeout
  prefetchCount := s.prefetchCount

/-- How the cache store of a section is reached. -/
def CacheSettings.profile (s : CacheSettings) : Cache.Profile where
  timeouts := s.timeouts
  endpoint := sectionEndpoint s.host s.port s.username s.password
  address := s.uri
  database := s.database
  lock := s.lock.withRetryWait s.lock.retryWaitMin s.lock.retryWaitMax

/-- How the document store of a section is reached. -/
def DocumentSettings.profile (s : DocumentSettings) : Documents.Profile where
  timeouts := s.timeouts
  endpoint := sectionEndpoint s.host s.port s.username s.password
  address := s.uri
  appName := s.appName.filter (· ≠ "")

end Reconnect
