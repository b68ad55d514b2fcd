import Reconnect.Schedule.Errand

/-!
# Schedules

A session runs one call in the foreground and any number of tasks in the background. A call takes
its turn when it has just begun or when something that it waits for has come about; the foreground
goes first, then the tasks in the order in which they were begun. When nobody can take a turn, the
calls that let the others go first have another round. Only when nobody waits for a round either
does the clock go on, to the next time that somebody waits for.

A task that is no call sleeps, or waits for another task to end.
-/

namespace Reconnect

/-- How calls in states of the type `Q` run in a world, with results of the type `R`. -/
structure Machine (S C Q R : Type) where
  /-- One step; the first step of a turn is marked. -/
  step : World S C → Bool → Q → World S C × Step Q R
  /-- What a waiting call waits for. -/
  wakes : World S C → Q → List Event
  /-- Whether a call holds the supervisor. -/
  holds : Q → Bool
  /-- What becomes of the world when a call is dropped. -/
  abandon : World S C → Q → World S C
  /-- The call that runs a recovery. -/
  recovery : Errand C → Q

/-- What came of something that a session was told to do. -/
inductive Said (R : Type) where
  | done
  | noTask
  | flag (b : Bool)
  /-- What came of a task, and how long it took. -/
  | joined (s : Said R) (took : Millis)
  | result (r : R)

/-- What a task is at. -/
inductive Task.State (Q R : Type) where
  /-- It is a call on its way. -/
  | running (q : Q)
  /-- It sleeps until a time. -/
  | sleeping (due : Millis)
  /-- It waits for the task of a number. -/
  | waiting (number : Nat)
  /-- It has ended after some time. -/
  | ended (s : Said R) (took : Millis)

/-- Something that runs in the background. -/
structure Task (Q R : Type) where
  number : Nat
  label : Option String
  began : Millis
  /-- Whether the task waits for its first turn. -/
  fresh : Bool := true
  state : Task.State Q R

/-- A world with the tasks that run in the background. -/
structure Session (S C Q R : Type) where
  world : World S C
  tasks : List (Task Q R) := []
  /-- How many tasks have been begun. -/
  begun : Nat := 0
  /-- How many more rounds there may be before the clock has to go on. -/
  rounds : Nat := 0

namespace Machine

variable {S C Q R : Type} [Site S C]

/-- The world with its mark of who holds the supervisor up to date. -/
def reattach (w : World S C) (held : Bool) : World S C :=
  { w with attached := w.attached && (w.owned || held || 0 < w.started) }

/-- One turn of a call: steps until it waits or ends. `held` tells whether another call holds the
supervisor. -/
def turn (m : Machine S C Q R) (held : Bool) :
    Nat → World S C → Bool → Q → World S C × (Q ⊕ R)
  | 0, w, _, q => (w, .inl q)
  | fuel + 1, w, opens, q =>
    let r := m.step w opens q
    match r.2 with
    | .waits q => (reattach r.1 (held || m.holds q), .inl q)
    | .moves q => m.turn held fuel (reattach r.1 (held || m.holds q)) false q
    | .ends a => (reattach r.1 held, .inr a)

/-- Whether a call has reason to take a turn. -/
def isReady (m : Machine S C Q R) (w : World S C) (q : Q) : Bool :=
  (m.wakes w q).any w.hasHappened

end Machine

/-- The time of an event, if it comes with the clock. -/
def Event.time? : Event → Option Millis
  | .time t => some t
  | _ => none

/-- Whether an event comes with a round. -/
def Event.isRound : Event → Bool
  | .round _ _ => true
  | _ => false

namespace Session

variable {S C Q R : Type} [Site S C]

/-- The most steps of one turn. -/
def turnFuel : Nat := 1000000

/-- The most turns between two steps of the foreground. -/
def runFuel : Nat := 10000000

/-- The most rounds that follow one another while the clock stands still. -/
def mostRounds : Nat := 1000

/-- The session with all rounds to come. -/
def refresh (s : Session S C Q R) : Session S C Q R := { s with rounds := mostRounds }

/-- Whether a task holds the supervisor. -/
def taskHolds (m : Machine S C Q R) (t : Task Q R) : Bool :=
  match t.state with
  | .running q => m.holds q
  | _ => false

/-- How the task of a number ended, if it has. -/
def ended? (s : Session S C Q R) (number : Nat) : Option (Said R × Millis) :=
  match (s.tasks.find? fun t => t.number == number).map Task.state with
  | some (.ended r took) => some (r, took)
  | _ => none

/-- Whether a task has reason to take a turn. -/
def isReady (m : Machine S C Q R) (s : Session S C Q R) (t : Task Q R) : Bool :=
  match t.state with
  | .running q => t.fresh || m.isReady s.world q
  | .sleeping due => due ≤ s.world.now
  | .waiting number => (s.ended? number).isSome
  | .ended _ _ => false

/-- What a task waits for, other tasks apart. -/
def taskWakes (m : Machine S C Q R) (w : World S C) (t : Task Q R) : List Event :=
  match t.state with
  | .running q => m.wakes w q
  | .sleeping due => [.time due]
  | .waiting _ | .ended _ _ => []

/-- Begins a task. -/
def begin (s : Session S C Q R) (label : Option String) (state : Task.State Q R) :
    Session S C Q R :=
  let task : Task Q R := { number := s.begun, label, began := s.world.now, state }
  { s with tasks := s.tasks ++ [task], begun := s.begun + 1 }

/-- The session with the recoveries that were started as tasks. -/
def adopt (m : Machine S C Q R) (s : Session S C Q R) : Session S C Q R :=
  (List.range s.world.started).foldl
    (fun s _ => s.begin none (.running (m.recovery (.ready .recover))))
    { s with world := { s.world with started := 0 } }

/-- The session without the task of a number. -/
def remove (s : Session S C Q R) (number : Nat) : Session S C Q R :=
  { s with tasks := s.tasks.filter fun t => t.number != number }

/-- Puts the task of a number into another state. -/
def setState (s : Session S C Q R) (number : Nat) (state : Task.State Q R) : Session S C Q R :=
  { s with tasks := s.tasks.map fun t =>
      if t.number == number then { t with fresh := false, state } else t }

/-- Takes a label from the task that bears it. -/
def unlabel (s : Session S C Q R) (label : String) : Session S C Q R :=
  { s with tasks := s.tasks.map fun t =>
      if t.label == some label then { t with label := none } else t }

/-- Gives the first task that has reason for it a turn. -/
def stir (m : Machine S C Q R) (s : Session S C Q R) (held : Bool) :
    Option (Session S C Q R) :=
  match s.tasks.find? (s.isReady m) with
  | none => none
  | some t =>
    let took := s.world.now - t.began
    match t.state with
    | .running q =>
      let held := held || (s.remove t.number).tasks.any (taskHolds m)
      let r := m.turn held turnFuel s.world true q
      let state := match r.2 with
        | .inl q => .running q
        | .inr a => .ended (.result a) took
      -- Recoveries that the turn started come after all other tasks.
      some (adopt m (setState { s with world := r.1 } t.number state))
    | .sleeping _ => some (s.setState t.number (.ended .done took))
    | .waiting number =>
      match s.ended? number with
      | some r => some ((s.remove number).setState t.number (.ended (.joined r.1 r.2) took))
      | none => none
    | .ended _ _ => none

/-- The session in the next round, if somebody waits for it. `more` is what the foreground waits
for. -/
def nextRound? (m : Machine S C Q R) (s : Session S C Q R) (more : List Event) :
    Option (Session S C Q R) :=
  let wakes := more ++ s.tasks.flatMap (taskWakes m s.world)
  if 0 < s.rounds && wakes.any (fun e => e.isRound && !s.world.hasHappened e) then
    some { s with
      world := { s.world with round := s.world.round + 1 }
      rounds := s.rounds - 1 }
  else none

/-- Gives a number of turns to tasks, or fewer if none has reason for another. -/
def settleWithin (m : Machine S C Q R) : Nat → Session S C Q R → Session S C Q R
  | 0, s => s
  | fuel + 1, s =>
    match (s.stir m false).or (s.nextRound? m []) with
    | some s => s.settleWithin m fuel
    | none => s

/-- Gives turns to tasks until none has reason for one. -/
def settle (m : Machine S C Q R) (s : Session S C Q R) : Session S C Q R :=
  s.refresh.settleWithin m runFuel

/-- The next time, after the present and not after the limit, that somebody waits for. -/
def nextTime (m : Machine S C Q R) (s : Session S C Q R) (more : List Event) (limit : Millis) :
    Millis :=
  let times := (more ++ s.tasks.flatMap (taskWakes m s.world)).filterMap Event.time?
  (times.filter (s.world.now < ·)).foldl min limit

/-- The session once nobody can take a turn: in the next round, or else at the next time. -/
def goOn (m : Machine S C Q R) (s : Session S C Q R) (more : List Event) (limit : Millis) :
    Session S C Q R :=
  (s.nextRound? m more).getD
    (refresh { s with world := s.world.setClock (s.nextTime m more limit) })

/-- Runs a call in the foreground until it ends or the limit is reached. -/
def runUntil (m : Machine S C Q R) (limit : Millis) :
    Nat → Session S C Q R → Bool → Q → Session S C Q R × Option R
  | 0, s, _, q => ({ s with world := m.abandon s.world q }, none)
  | fuel + 1, s, fresh, q =>
    if fresh || m.isReady s.world q then
      let r := m.turn (s.tasks.any (taskHolds m)) turnFuel s.world true q
      let s := adopt m { s with world := r.1 }
      match r.2 with
      | .inl q => s.runUntil m limit fuel false q
      | .inr a => (s, some a)
    else
      match s.stir m (m.holds q) with
      | some s => s.runUntil m limit fuel false q
      | none =>
        -- Nobody can take a turn: only now may time pass.
        if limit ≤ s.world.now then ({ s with world := m.abandon s.world q }, none)
        else (s.goOn m (m.wakes s.world q) limit).runUntil m limit fuel false q

/-- How long the foreground waits for a call at most. -/
def patience : Millis := 120000

/-- Runs a call in the foreground, then the tasks that are due. A call that takes too long is
dropped. -/
def run (m : Machine S C Q R) (s : Session S C Q R) (q : Q) : Session S C Q R × Option R :=
  let r := s.refresh.runUntil m (s.world.now + patience) runFuel true q
  (r.1.settle m, r.2)

/-- Lets time pass. -/
def sleepUntil (m : Machine S C Q R) (due : Millis) :
    Nat → Session S C Q R → Session S C Q R
  | 0, s => s
  | fuel + 1, s =>
    match s.stir m false with
    | some s => s.sleepUntil m due fuel
    | none => if due ≤ s.world.now then s else (s.goOn m [] due).sleepUntil m due fuel

/-- Lets an amount of time pass. -/
def sleep (m : Machine S C Q R) (s : Session S C Q R) (amount : Millis) : Session S C Q R :=
  s.refresh.sleepUntil m (s.world.now + amount) runFuel

/-- The task with a label. -/
def find? (s : Session S C Q R) (label : String) : Option (Task Q R) :=
  s.tasks.find? fun t => t.label == some label

/-- Begins a task under a label, which moves on from an earlier task that bears it. -/
def spawn (m : Machine S C Q R) (s : Session S C Q R) (label : String)
    (state : Task.State Q R) : Session S C Q R :=
  ((s.unlabel label).begin (some label) state).settle m

/-- Whether the task with a label has ended. -/
def finished? (s : Session S C Q R) (label : String) : Option Bool :=
  (s.find? label).map fun t => (s.ended? t.number).isSome

/-- Drops the task with a label. -/
def abort (m : Machine S C Q R) (s : Session S C Q R) (label : String) :
    Option (Session S C Q R) :=
  (s.find? label).map fun t =>
    let s := s.remove t.number
    let world := match t.state with
      | .running q => m.abandon s.world q
      | _ => s.world
    let world := Machine.reattach world (s.tasks.any (taskHolds m))
    settle m { s with world }

/-- Waits for the task of a number to end. -/
def joinUntil (m : Machine S C Q R) (limit : Millis) (number : Nat) :
    Nat → Session S C Q R → Session S C Q R × Option (Said R × Millis)
  | 0, s => (s, none)
  | fuel + 1, s =>
    match s.stir m false with
    | some s => s.joinUntil m limit number fuel
    | none =>
      match s.ended? number with
      | some r => (s.remove number, some r)
      | none =>
        if limit ≤ s.world.now then (s, none)
        else (s.goOn m [] limit).joinUntil m limit number fuel

/-- Waits for the task of a number to end, and gives what came of it and how long it took. -/
def join (m : Machine S C Q R) (s : Session S C Q R) (number : Nat) :
    Session S C Q R × Option (Said R × Millis) :=
  s.refresh.joinUntil m (s.world.now + patience) number runFuel

end Session

end Reconnect
