import Reconnect.Json.Reader
import Reconnect.Settings.Basic

/-!
# Reading settings

A record is given as an object or as an array. In an object every field may be missing, no field
may occur twice, and unknown entries are skipped; in an array the values stand in the order of the
fields and only a tail may be missing. A missing field has a default of its own; a missing section
has the default of its record.
-/

namespace Reconnect

namespace Json

/-- The values that the entries of an object give to the fields. A name that is no text makes the
reading fail, and so does a field that occurs twice. -/
def fieldsOfEntries (names : List String) :
    List (List JsonUnit × Json) → Option (String → Option Json)
  | [] => some fun _ => none
  | (us, value) :: rest =>
    match unitsText? us, fieldsOfEntries names rest with
    | some name, some found =>
      if name ∈ names then
        if (found name).isSome then none
        else some fun n => if n = name then some value else found n
      else some found
    | _, _ => none

/-- The values that the items of an array give to the fields. -/
def fieldsOfItems : List String → List Json → Option (String → Option Json)
  | _, [] => some fun _ => none
  | [], _ :: _ => none
  | name :: names, item :: items =>
    (fieldsOfItems names items).map fun found n => if n = name then some item else found n

/-- The values that a record gives to the named fields. -/
def fields? (names : List String) : Json → Option (String → Option Json)
  | .object entries => fieldsOfEntries names entries
  | .array items => fieldsOfItems names items
  | _ => none

/-- The value of a field, or its default if the field is missing. -/
def fieldOr {α : Type} (default : α) (read : Json → Option α) : Option Json → Option α
  | none => some default
  | some v => read v

/-- A text, or `null` for none. -/
def optionalText? : Json → Option (Option String)
  | .null => some none
  | v => v.text?.map some

/-- A number below `2 ^ 64`. -/
def word64? : Json → Option Nat := nat? 18446744073709551615

/-- A number below `2 ^ 16`. -/
def word16? : Json → Option Nat := nat? 65535

/-- A number below `2 ^ 8`. -/
def word8? : Json → Option Nat := nat? 255

end Json

open Json

/-- The names of the fields that hold durations of a connection. -/
def timeoutFields : List String :=
  ["connection_timeout_ms", "connection_retry_wait_ms", "read_timeout_ms", "write_timeout_ms",
    "operation_retry_wait_ms"]

/-- The durations that a record gives. -/
def Timeouts.ofJson? (v : Json) : Option Timeouts := do
  let field ← fields? timeoutFields v
  some {
    connection := ← fieldOr 10000 word64? (field "connection_timeout_ms")
    connectionRetryWait := ← fieldOr 200 word64? (field "connection_retry_wait_ms")
    read := ← fieldOr 15000 word64? (field "read_timeout_ms")
    write := ← fieldOr 15000 word64? (field "write_timeout_ms")
    operationRetryWait := ← fieldOr 200 word64? (field "operation_retry_wait_ms") }

/-- The names of the fields of the broker's section. -/
def brokerFields : List String :=
  ["host", "port", "username", "password", "uri", "vhost", "heartbeat_seconds",
    "declare_timeout_ms", "prefetch_count", "timeouts"]

/-- The broker settings that a record gives. -/
def BrokerSettings.ofJson? (v : Json) : Option BrokerSettings := do
  let field ← fields? brokerFields v
  some {
    host := ← fieldOr "127.0.0.1" text? (field "host")
    port := ← fieldOr 5672 word16? (field "port")
    username := ← fieldOr "" text? (field "username")
    password := ← fieldOr "" text? (field "password")
    uri := ← fieldOr none optionalText? (field "uri")
    virtualHost := ← fieldOr "/" text? (field "vhost")
    heartbeatSeconds := ← fieldOr 20 word16? (field "heartbeat_seconds")
    declareTimeout := ← fieldOr 15000 word64? (field "declare_timeout_ms")
    prefetchCount := ← fieldOr 1 word16? (field "prefetch_count")
    timeouts := ← fieldOr {} Timeouts.ofJson? (field "timeouts") }

/-- The names of the fields that time the locks. -/
def lockFields : List String :=
  ["acquire_timeout_ms", "retry_wait_min_ms", "retry_wait_max_ms", "ttl_ms"]

/-- The timing of locks that a record gives. -/
def Cache.LockSettings.ofJson? (v : Json) : Option Cache.LockSettings := do
  let field ← fields? lockFields v
  some {
    acquireTimeout := ← fieldOr 20000 word64? (field "acquire_timeout_ms")
    retryWaitMin := ← fieldOr 10 word64? (field "retry_wait_min_ms")
    retryWaitMax := ← fieldOr 100 word64? (field "retry_wait_max_ms")
    ttl := ← fieldOr 15000 word64? (field "ttl_ms") }

/-- The names of the fields of the cache store's section. -/
def cacheFields : List String :=
  ["host", "port", "username", "password", "uri", "database", "lock", "timeouts"]

/-- The cache store settings that a record gives. -/
def CacheSettings.ofJson? (v : Json) : Option CacheSettings := do
  let field ← fields? cacheFields v
  some {
    host := ← fieldOr "127.0.0.1" text? (field "host")
    port := ← fieldOr 6379 word16? (field "port")
    username := ← fieldOr "" text? (field "username")
    password := ← fieldOr "" text? (field "password")
    uri := ← fieldOr none optionalText? (field "uri")
    database := ← fieldOr 0 word8? (field "database")
    lock := ← fieldOr {} Cache.LockSettings.ofJson? (field "lock")
    timeouts := ← fieldOr {} Timeouts.ofJson? (field "timeouts") }

/-- The names of the fields of the document store's section. -/
def documentFields : List String :=
  ["host", "port", "username", "password", "uri", "app_name", "timeouts"]

/-- The document store settings that a record gives. -/
def DocumentSettings.ofJson? (v : Json) : Option DocumentSettings := do
  let field ← fields? documentFields v
  some {
    host := ← fieldOr "127.0.0.1" text? (field "host")
    port := ← fieldOr 27017 word16? (field "port")
    username := ← fieldOr "" text? (field "username")
    password := ← fieldOr "" text? (field "password")
    uri := ← fieldOr none optionalText? (field "uri")
    appName := ← fieldOr none optionalText? (field "app_name")
    timeouts := ← fieldOr {} Timeouts.ofJson? (field "timeouts") }

/-- The names of the sections. -/
def sectionFields : List String := ["rabbitmq", "redis", "mongodb"]

/-- The settings that a record gives. -/
def Settings.ofJson? (v : Json) : Option Settings := do
  let field ← fields? sectionFields v
  some {
    broker := ← fieldOr {} BrokerSettings.ofJson? (field "rabbitmq")
    cache := ← fieldOr {} CacheSettings.ofJson? (field "redis")
    documents := ← fieldOr {} DocumentSettings.ofJson? (field "mongodb") }

/-- The settings that a text gives. -/
def Settings.ofText? (s : String) : Option Settings := (Json.read? s).bind Settings.ofJson?

/-- Why settings are not accepted. -/
inductive SettingsError where
  | notFound
  | unreadable (path : String)
  | malformed
  | emptyBrokerHost
  | lockWaitsOutOfOrder
  | folderNotCreated (path : String)
  | notWritten (path : String)
  deriving DecidableEq, Repr

/-- The name of the file that holds the settings. -/
def settingsFileName : String := "NotiConnections.json"

/-- The text of an error. -/
def SettingsError.message : SettingsError → String
  | .notFound =>
    "Could not find " ++ settingsFileName ++ " configuration file. Please create one in the "
      ++ "current directory, its config/ directory, or your home directory (as ."
      ++ settingsFileName ++ ")."
  | .unreadable path => "Failed to read config file at " ++ path
  | .malformed => "Configuration file contains invalid JSON or fields of the wrong type"
  | .emptyBrokerHost => "Configuration error: rabbitmq.host cannot be empty"
  | .lockWaitsOutOfOrder =>
    "Configuration error: redis.lock.retry_wait_min_ms exceeds retry_wait_max_ms"
  | .folderNotCreated path => "Failed to create directory at " ++ path
  | .notWritten path => "Failed to write configuration to " ++ path

/-- Accepts settings that name a broker and whose bounds of the lock's pause are in order. -/
def Settings.check (s : Settings) : Except SettingsError Settings :=
  if s.broker.uri.isNone && s.broker.host == "" then .error .emptyBrokerHost
  else if s.cache.lock.retryWaitMin > s.cache.lock.retryWaitMax then .error .lockWaitsOutOfOrder
  else .ok s

/-- The accepted settings of a text. -/
def Settings.read (s : String) : Except SettingsError Settings :=
  match Settings.ofText? s with
  | some settings => settings.check
  | none => .error .malformed

end Reconnect
