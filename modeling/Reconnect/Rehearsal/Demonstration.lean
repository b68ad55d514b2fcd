import Reconnect.Broker.Profile
import Reconnect.Rehearsal.Postroom

/-!
# The demonstration

The demonstration declares a task queue, sets a consumer to work on it, pushes three tasks, and
then waits until it is stopped. It is over as soon as the broker cannot be reached in time.
-/

namespace Reconnect.Rehearsal

open Broker

/-- The name of the task queue. -/
def demonstrationQueue : String := "noti_demo_tasks"

/-- The tasks. -/
def demonstrationTasks : List Bytes :=
  ["1", "2", "3"].map fun n => Text.utf8 ("demo task " ++ n)

/-- What the demonstration has come to. -/
inductive Demonstrated where
  /-- The task queue could not be declared. -/
  | undeclared (after : Millis)
  /-- A task could not be pushed. -/
  | unpushed (e : MessagingError Fault) (after : Millis)
  /-- It waits until it is stopped. -/
  | waiting
  deriving DecidableEq

namespace Demonstrated

/-- Gives an order, in the background if it has a label. -/
def order (p : Broker.Profile) (s : PostSession) (label : Option String) (o : PostOrder) :
    PostSession × Answer PostResult :=
  let r := PostSession.obey p.timeouts p.declareTimeout s o
  carryOut postMachine r.1 label r.2

/-- Pushes one task after the other. -/
def push (p : Broker.Profile) (s : PostSession) : List Bytes → Demonstrated
  | [] => .waiting
  | body :: rest =>
    match order p s none (.tell "producer" (.push body)) with
    | (s, .said (.result (.published (.error e))) _) => .unpushed e s.world.now
    | (_, .stuck) => .waiting
    | (s, _) => push p s rest

/-- The demonstration on a network. -/
def on (network : Network) (p : Broker.Profile) : Demonstrated :=
  let start : PostSession :=
    { world := {
        site := { store := { hub := { network } } }, retryWait := p.timeouts.connectionRetryWait } }
  let make := fun (s : PostSession) (name : String) (client : Option String) (b : Blueprint) =>
    (order p s none (.make name client b)).1
  let s := make start "client" none .client
  let s := make s "tasks" (some "client") (.taskQueue demonstrationQueue)
  match order p s none (.tell "tasks" .declareTasks) with
  | (s, .said (.result (.ended (.error _))) _) => .undeclared s.world.now
  | (_, .stuck) => .waiting
  | (s, _) =>
    let s := make s "consumer" none (.taskConsumer demonstrationQueue (some "tasks"))
    let r := order p s (some "consumer") (.tell "consumer" (.consumeTasks 0 "root"))
    let s := make r.1 "producer" (some "client") (.taskProducer demonstrationQueue)
    push p s demonstrationTasks

end Demonstrated

end Reconnect.Rehearsal
