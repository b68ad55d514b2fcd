import Reconnect.Settings.Basic
import Reconnect.Settings.EnvironmentFile
import Reconnect.Text.Decimal

/-!
# Settings from variables

Twelve variables of the process go before the settings of a file. A variable that is empty, or
whose value is no text, counts as missing.
-/

namespace Reconnect

/-- The settings that variables replace. -/
structure Overrides where
  brokerHost : Option String := none
  brokerPort : Option Nat := none
  brokerUsername : Option String := none
  brokerPassword : Option String := none
  brokerPrefetchCount : Option Nat := none
  cacheHost : Option String := none
  cachePort : Option Nat := none
  cachePassword : Option String := none
  documentHost : Option String := none
  documentPort : Option Nat := none
  documentUsername : Option String := none
  documentPassword : Option String := none
  deriving DecidableEq, Repr, Inhabited

/-- A variable that should hold a number and does not. -/
structure OverrideError where
  name : String
  value : String
  cause : Text.NumberError
  deriving DecidableEq, Repr

/-- The text of an error, without its cause. -/
def OverrideError.message (e : OverrideError) : String :=
  e.name ++ " is not a valid number: " ++ e.value

namespace Overrides

/-- The value of a variable. -/
def textOf (vars : Variables) (name : String) : Option String :=
  (EnvironmentFile.textOf? vars name).filter (· ≠ "")

/-- The number that a variable holds, which is below `2 ^ 16`. -/
def numberOf (vars : Variables) (name : String) : Except OverrideError (Option Nat) :=
  match textOf vars name with
  | none => .ok none
  | some value =>
    match Text.readNat 65535 value with
    | .ok n => .ok (some n)
    | .error cause => .error ⟨name, value, cause⟩

/-- The overrides of the variables. -/
def ofVariables (vars : Variables) : Except OverrideError Overrides := do
  let brokerPort ← numberOf vars "RABBITMQ_PORT"
  let brokerPrefetchCount ← numberOf vars "RABBITMQ_PREFETCH_COUNT"
  let cachePort ← numberOf vars "REDIS_PORT"
  let documentPort ← numberOf vars "MONGODB_PORT"
  return {
    brokerHost := textOf vars "RABBITMQ_HOST"
    brokerPort
    brokerUsername := textOf vars "RABBITMQ_USERNAME"
    brokerPassword := textOf vars "RABBITMQ_PASSWORD"
    brokerPrefetchCount
    cacheHost := textOf vars "REDIS_HOST"
    cachePort
    cachePassword := textOf vars "REDIS_PASSWORD"
    documentHost := textOf vars "MONGODB_HOST"
    documentPort
    documentUsername := textOf vars "MONGODB_USERNAME"
    documentPassword := textOf vars "MONGODB_PASSWORD" }

/-- The settings with the overrides in place. -/
def apply (o : Overrides) (s : Settings) : Settings where
  broker := { s.broker with
    host := o.brokerHost.getD s.broker.host
    port := o.brokerPort.getD s.broker.port
    username := o.brokerUsername.getD s.broker.username
    password := o.brokerPassword.getD s.broker.password
    prefetchCount := o.brokerPrefetchCount.getD s.broker.prefetchCount }
  cache := { s.cache with
    host := o.cacheHost.getD s.cache.host
    port := o.cachePort.getD s.cache.port
    password := o.cachePassword.getD s.cache.password }
  documents := { s.documents with
    host := o.documentHost.getD s.documents.host
    port := o.documentPort.getD s.documents.port
    username := o.documentUsername.getD s.documents.username
    password := o.documentPassword.getD s.documents.password }

end Overrides

end Reconnect
