import Reconnect.Schedule.Session

/-!
# Cues of a rehearsal

A rehearsal is told what to do in cues. A cue moves the clock, asks for a task, or gives an order;
an order comes to a result at once or to a call. Both are carried out in the foreground or as a
task. After every cue the tasks that are due have taken their turns.
-/

namespace Reconnect.Rehearsal

/-- A cue that every rehearsal knows. -/
inductive Cue where
  /-- Let time pass. -/
  | sleep (amount : Millis)
  /-- Wait for a task. -/
  | join (label : String)
  /-- Drop a task. -/
  | abort (label : String)
  /-- Tell whether a task has ended. -/
  | finished (label : String)
  /-- Cancel a context. -/
  | cancel (context : String)
  deriving DecidableEq, Repr

/-- The label of the task that a cue waits for. -/
def Cue.task? : Cue → Option String
  | .join label => some label
  | _ => none

/-- The answer to a cue. -/
inductive Answer (R : Type) where
  /-- The call took too long and was dropped. -/
  | stuck
  /-- A task was begun. -/
  | spawned
  | said (s : Said R) (took : Millis)

variable {S C Q R : Type} [Site S C]

/-- Lets the tasks that are due take their turns. -/
def rest (m : Machine S C Q R) (s : Session S C Q R) : Session S C Q R :=
  (s.adopt m).settle m

/-- Follows a cue that takes no time. -/
def obeyAtOnce (m : Machine S C Q R) (s : Session S C Q R) : Cue → Session S C Q R × Said R
  | .sleep _ | .join _ => (s, .noTask)
  | .abort label =>
    match s.abort m label with
    | some s => (s, .done)
    | none => (s, .noTask)
  | .finished label => (s, ((s.finished? label).map Said.flag).getD .noTask)
  | .cancel context => ({ s with world := s.world.cancel context }, .done)

/-- Follows a cue that every rehearsal knows. -/
def follow (m : Machine S C Q R) (s : Session S C Q R) (cue : Cue) : Session S C Q R × Answer R :=
  match cue, cue.task?.bind s.find? with
  | .sleep amount, _ =>
    let t := rest m (s.sleep m amount)
    (t, .said .done (t.world.now - s.world.now))
  | .join label, some task =>
    match (s.unlabel label).join m task.number with
    | (t, some (r, took)) =>
      let t := rest m t
      (t, .said (.joined r took) (t.world.now - s.world.now))
    | (t, none) => (t, .stuck)
  | cue, _ => let r := obeyAtOnce m s cue; (rest m r.1, .said r.2 0)

/-- Follows a cue in a task with a label. -/
def followAside (m : Machine S C Q R) (s : Session S C Q R) (label : String) (cue : Cue) :
    Session S C Q R × Answer R :=
  let r : Session S C Q R × Task.State Q R := match cue, cue.task?.bind s.find? with
    | .sleep amount, _ => (s, .sleeping (s.world.now + amount))
    | .join awaited, some task => (s.unlabel awaited, .waiting task.number)
    | cue, _ => let r := obeyAtOnce m s cue; (r.1, .ended r.2 0)
  (r.1.spawn m label r.2, .spawned)

/-- Carries out an order, given what it came to: in the foreground, or as a task with a label. -/
def carryOut (m : Machine S C Q R) (s : Session S C Q R) (label : Option String) :
    R ⊕ Q → Session S C Q R × Answer R
  | .inl r =>
    match label with
    | none => (rest m s, .said (.result r) 0)
    | some label => ((s.adopt m).spawn m label (.ended (.result r) 0), .spawned)
  | .inr q =>
    match label with
    | some label => (s.spawn m label (.running q), .spawned)
    | none =>
      match s.run m q with
      | (t, some r) => (t, .said (.result r) (t.world.now - s.world.now))
      | (t, none) => (t, .stuck)

end Reconnect.Rehearsal
