import Reconnect.Schedule.World

/-!
# Errands

An errand is a call of the supervisor on its way through the stages: it opens and asks connections
at the site of the world and takes the pauses between two attempts.
-/

namespace Reconnect

open Supervisor

/-- A call of the supervisor, and what it waits for at the moment. -/
inductive Errand (C : Type) where
  /-- Before a stage. -/
  | ready (stage : Stage C)
  /-- Until a connection is opened or not. -/
  | opening (stage : Stage C) (due : Millis) (fault : Option Fault)
  /-- Until a connection answers or not. -/
  | asking (stage : Stage C) (due : Millis) (fault : Option Fault)
  /-- Until a pause is over. -/
  | resting (stage : Stage C) (till : Event)
  deriving DecidableEq, Repr

namespace Errand

variable {S C : Type} [Site S C]

/-- Goes on with a signal. -/
def turn (w : World S C) (stage : Stage C) (signal : Signal C) :
    World S C × Step (Errand C) Unit :=
  let t := w.supervisor.resume stage signal
  let w := w.carryOut t
  match t.next with
  | some next => (w, .moves (.ready next))
  | none => (w, .ends ())

/-- One step of an errand. -/
def step (w : World S C) : Errand C → World S C × Step (Errand C) Unit
  | .ready stage =>
    match stage.need with
    | .nothing => turn w stage .go
    | .leave => turn w stage (if w.isCanceled w.context then .stopped else .go)
    | .connection =>
      let r := Site.dial w.site
      ({ w with site := r.1 }, .moves (.opening stage (w.now + r.2.delay) r.2.fault))
    | .answer c =>
      let r := Site.ping w.site c
      ({ w with site := r.1 }, .moves (.asking stage (w.now + r.2.delay) r.2.fault))
    | .rest => (w, .moves (.resting stage (w.after w.retryWait)))
  | .opening stage due fault =>
    if w.now < due then (w, .waits (.opening stage due fault))
    else if fault.isSome then turn w stage .failed
    else
      let r := Site.connect w.site
      turn { w with site := r.1 } stage (.opened r.2)
  | .asking stage due fault =>
    if w.now < due then (w, .waits (.asking stage due fault))
    else turn w stage (if fault.isSome then .failed else .go)
  | .resting stage till =>
    if w.isCanceled w.context then turn w stage .stopped
    else if w.hasHappened till then turn w stage .go
    else (w, .waits (.resting stage till))

/-- What an errand waits for. -/
def wakes (w : World S C) : Errand C → List Event
  | .ready _ => []
  | .opening _ due _ => [.time due]
  | .asking _ due _ => [.time due]
  | .resting _ till => [till, .cancellation w.context]

end Errand

end Reconnect
