import Reconnect.Text.Blank
import Reconnect.Text.Percent
import Reconnect.Text.Quoted

/-!
# Endpoints

An endpoint is the host and port of a backing store with the credentials to use there. Its address
has the form `scheme://[user[:password]@]host:port/path`, with user and password in percent coding.
-/

namespace Reconnect

/-- Why a store cannot be reached with the given profile. -/
inductive ProfileError where
  | missingHostOrPort (driver : String)
  | invalidUri (driver reason : String)
  deriving DecidableEq, Repr

/-- The text of a profile error. -/
def ProfileError.message : ProfileError → String
  | .missingHostOrPort driver => driver ++ " connection args: host and port must be set"
  | .invalidUri driver reason =>
    driver ++ " connection args: invalid connection uri: " ++ reason

/-- Host, port and credentials of a backing store. -/
structure Endpoint where
  host : String
  port : Nat
  username : Option String := none
  password : Option String := none
  deriving DecidableEq, Repr

namespace Endpoint

/-- A credential, an empty one counting as absent. -/
def credential? (s : String) : Option String := if s = "" then none else some s

/-- The endpoint with both credentials replaced. -/
def withCredentials (e : Endpoint) (username password : String) : Endpoint :=
  { e with username := credential? username, password := credential? password }

/-- The user information of an address, with its closing at sign. -/
def userInfo (e : Endpoint) : String :=
  match e.username, e.password with
  | some user, some pass => Text.percentEncode user ++ ":" ++ Text.percentEncode pass ++ "@"
  | some user, none => Text.percentEncode user ++ "@"
  | none, some pass => ":" ++ Text.percentEncode pass ++ "@"
  | none, none => ""

/-- The address of an endpoint. An endpoint with a blank host or the port zero has none. -/
def uri (e : Endpoint) (driver scheme path : String) : Except ProfileError String :=
  if Text.isBlankText e.host || e.port == 0 then .error (.missingHostOrPort driver)
  else .ok (scheme ++ "://" ++ e.userInfo ++ e.host ++ ":" ++ toString e.port ++ "/" ++ path)

end Endpoint

/-- Whether `uri` starts with `scheme`, followed by `://` and at least one more character. -/
def hasScheme (uri scheme : String) : Bool :=
  let head := scheme.toList ++ [':', '/', '/']
  head.isPrefixOf uri.toList && head.length < uri.toList.length

/-- Accepts an address that carries one of the schemes. -/
def checkUri (driver uri : String) (schemes : List String) : Except ProfileError Unit :=
  if schemes.any (hasScheme uri) then .ok ()
  else .error (.invalidUri driver ("expected one of " ++ Text.quotedList schemes ++ " schemes"))

end Reconnect
