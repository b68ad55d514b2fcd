import Reconnect.Provider
import Reconnect.Rehearsal.Demonstration
import Reconnect.Settings.Files
import Reconnect.Settings.Overrides

/-!
# The application

Told to do so by its first argument, the application writes a file of default settings. Otherwise
it reads its settings and the variables that go before them, and demonstrates a task queue at the
broker that they name.
-/

namespace Reconnect

/-- What a run of the application comes to. -/
inductive Ending where
  | success
  /-- It ends with a complaint after some time. -/
  | failure (complaint : String) (after : Millis)
  /-- It runs on until it is stopped. -/
  | runsOn
  deriving DecidableEq

/-- A run of the application: what it leaves in its folder, what it prints, and how it ends. -/
structure Run where
  folder : Folder
  printed : String := ""
  ending : Ending

/-- What the application starts from. -/
structure Start where
  /-- The working folder, with the home folder in it. -/
  folder : Folder := {}
  home : String := "home"
  environment : Variables := .empty
  /-- The network that the broker is reached by. -/
  network : Rehearsal.Network := {}

namespace Start

/-- The argument that asks for a file of default settings. -/
def settingsFlag : String := "--init-config"

/-- The file of variables. -/
def variablesFileName : String := ".env"

/-- The variables of the process and of the file of variables. -/
def allVariables (s : Start) : Variables :=
  match s.folder.read? variablesFileName with
  | some content => EnvironmentFile.load s.environment content
  | none => s.environment

/-- The settings with the overrides in place, or the text of what is wrong. -/
def settings (s : Start) : Except String Settings :=
  match s.folder.settingsOrDefault s.home with
  | .error e => .error e.message
  | .ok found =>
    match Overrides.ofVariables s.allVariables with
    | .error e => .error e.message
    | .ok o => .ok (o.apply found)

/-- Demonstrates a task queue. -/
def demonstrate (s : Start) (found : Settings) : Ending :=
  let provider : Provider Nat := {}
  match (provider.beginBroker found.broker.profile).2 with
  | .error _ => .failure "Invalid broker configuration" 0
  | .ok _ =>
    match Rehearsal.Demonstrated.on s.network found.broker.profile with
    | .undeclared after => .failure "Failed to declare the demo queue" after
    | .unpushed e after => .failure (e.message Fault.message) after
    | .waiting => .runsOn

/-- Runs the application with arguments. -/
def run (s : Start) (arguments : List String) : Run :=
  if arguments.head? = some settingsFlag then
    match s.folder.createSettings settingsFileName with
    | (folder, .ok notice) => { folder, printed := notice, ending := .success }
    | (folder, .error e) => { folder, ending := .failure e.message 0 }
  else
    match s.settings with
    | .error complaint => { folder := s.folder, ending := .failure complaint 0 }
    | .ok found => { folder := s.folder, ending := s.demonstrate found }

end Start

namespace Ending

/-- How the run of an ending that has come is reported: by a number, zero for success. -/
def code : Ending → Option Nat
  | .success => some 0
  | .failure _ _ => some 1
  | .runsOn => none

/-- What is complained of. -/
def complaint : Ending → String
  | .failure text _ => "Error: " ++ text
  | _ => ""

/-- What an observer sees who stops the run once an amount of time has passed. -/
def seenAfter (patience : Millis) : Ending → Ending
  | .failure text after => if after < patience then .failure text after else .runsOn
  | e => e

end Ending

end Reconnect
