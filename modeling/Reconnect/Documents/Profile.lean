import Reconnect.Endpoint
import Reconnect.Timeouts

/-!
# How a document store is reached
-/

namespace Reconnect.Documents

/-- The name under which the document store's errors are reported. -/
def driverName : String := "mongodb"

/-- How a document store is reached. -/
structure Profile where
  timeouts : Timeouts := {}
  endpoint : Endpoint := ⟨"127.0.0.1", 27017, none, none⟩
  address : Option String := none
  /-- The name that the application announces, if it has one. -/
  appName : Option String := none
  deriving DecidableEq, Repr, Inhabited

/-- The profile with an application name, an empty one counting as absent. -/
def Profile.withAppName (p : Profile) (name : String) : Profile :=
  { p with appName := if name = "" then none else some name }

/-- The address of the document store. -/
def Profile.uri (p : Profile) : Except ProfileError String :=
  match p.address with
  | some address => (checkUri driverName address ["mongodb", "mongodb+srv"]).map fun _ => address
  | none => p.endpoint.uri driverName "mongodb" ""

end Reconnect.Documents
