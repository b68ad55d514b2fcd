import Reconnect.Cache.Profile
import Reconnect.Uri

/-!
# Addresses of cache stores

The path of the address is the number of the database. Transport encryption is not offered, so an
address that asks for it is refused.
-/

namespace Reconnect.Cache

/-- Why an address does not lead to a cache store. -/
inductive AddressError where
  | malformed
  | missingHost
  | encrypted
  | database
  | username
  | password
  | protocol (version : String)
  deriving DecidableEq, Repr

/-- The text of an error. -/
def AddressError.message : AddressError → String
  | .malformed => "Redis URL did not parse- InvalidClientConfig"
  | .missingHost => "Missing hostname- InvalidClientConfig"
  | .encrypted =>
    "can't connect with TLS, the feature is not enabled- InvalidClientConfig"
  | .database => "Invalid database number- InvalidClientConfig"
  | .username => "Username is not valid UTF-8 string- InvalidClientConfig"
  | .password => "Password is not valid UTF-8 string- InvalidClientConfig"
  | .protocol version => "Invalid protocol version - InvalidClientConfig: " ++ version

/-- Where and as whom to log in to a cache store. -/
structure Address where
  host : String
  port : Nat
  database : Int
  username : Option String
  password : Option String
  deriving DecidableEq, Repr

namespace Address

/-- The number of the database that a path names, of 64 bits with a sign. -/
def database? (segments : List (List Char)) : Option Int :=
  let trimmed := ((segments.dropWhile (·.isEmpty)).reverse.dropWhile (·.isEmpty)).reverse
  let path := List.intercalate ['/'] trimmed
  let number := fun (max : Nat) (ds : List Char) =>
    if ds.isEmpty || !ds.all (fun c => '0' ≤ c && c ≤ '9') then none
    else
      let n := ds.foldl (fun n c => n * 10 + (c.toNat - 48)) 0
      if n ≤ max then some (Int.ofNat n) else none
  match path with
  | [] => some 0
  | '-' :: ds => (number 9223372036854775808 ds).map fun n => -n
  | '+' :: ds => number 9223372036854775807 ds
  | ds => number 9223372036854775807 ds

/-- The text of a part in percent coding. -/
def decode? (cs : List Char) : Option String := Text.ofUtf8? (Text.percentBytes cs)

/-- The login that an address stands for. -/
def ofUri (s : String) : Except AddressError Address := do
  let some uri := Uri.parse? s | throw .malformed
  if uri.host.isEmpty then throw .missingHost
  if uri.scheme = "rediss" then throw .encrypted
  let some database := database? uri.segments | throw .database
  let some username := decode? uri.username | throw .username
  let some password := (uri.password.getD []) |> decode? | throw .password
  let versions := (uri.query.map Uri.queryPairs).getD []
  match (versions.filter fun p => p.1 = "protocol").getLast? with
  | some (_, version) =>
    unless ["2", "resp2", "3", "resp3"].contains version do
      throw (.protocol version)
  | none => pure ()
  return {
    host := String.ofList uri.host
    port := uri.port.getD 6379
    database
    username := if username = "" then none else some username
    password := if uri.password.isNone then none else some password }

end Address

/-- The login of a profile. -/
def Profile.login (p : Profile) : Except ProfileError Address := do
  match Address.ofUri (← p.uri) with
  | .ok address => return address
  | .error e => throw (.invalidUri driverName e.message)

end Reconnect.Cache
