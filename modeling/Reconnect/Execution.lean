import Reconnect.Schedule.World

/-!
# Executing an operation through a client

An operation is run on whatever connection the client has at the moment. If it fails because of the
network, the supervisor is told, and the operation is run again after a pause, until it succeeds,
fails for another reason, runs out of time, or the context of the client is canceled.

A step that opens a turn of the call looks at the context first; the deadline counts only when the
call would have to wait.
-/

namespace Reconnect

/-- A client of a supervisor. -/
structure Client where
  id : Identifier
  readTimeout : Millis
  writeTimeout : Millis
  /-- The pause between two attempts of one operation. -/
  retryWait : Millis
  context : String
  deriving DecidableEq, Repr, Inhabited

/-- The longer one of the two timeouts. -/
def Client.defaultTimeout (c : Client) : Millis := max c.readTimeout c.writeTimeout

/-- A client with the timeouts of a profile. -/
def Client.ofTimeouts (id : Identifier) (t : Timeouts) (context : String) : Client :=
  ⟨id, t.read, t.write, t.operationRetryWait, context⟩

/-- An operation on connections of the type `C` in worlds of the type `W`. While it runs, it is in
a state of the type `K`. -/
structure Operation (W C K α : Type) where
  /-- How the attempt of the given number starts, counted from zero. -/
  begin : Nat → C → K
  step : W → K → W × Step K (Except Fault α)
  wakes : K → List Event

/-- An operation that comes to its end at once. -/
def Operation.atOnce {W C α : Type} (run : W → C → W × Except Fault α) : Operation W C C α where
  begin _ c := c
  step w c := let r := run w c; (r.1, .ends r.2)
  wakes _ := []

/-- What an execution is doing. -/
inductive Execution.Phase (K : Type) where
  /-- It has not begun. -/
  | entering (timeout : Millis)
  /-- It looks for a connection. -/
  | seeking
  /-- The operation runs. -/
  | running (state : K)
  /-- It pauses before the next attempt. -/
  | resting (till : Event)
  deriving DecidableEq, Repr

/-- The execution of an operation. -/
structure Execution (K : Type) where
  client : Client
  /-- When the time is up. -/
  deadline : Millis := 0
  /-- How many attempts have been made. -/
  attempts : Nat := 0
  phase : Execution.Phase K
  deriving DecidableEq, Repr

/-- How an execution ended. -/
structure Execution.Outcome (α : Type) where
  attempts : Nat
  result : Except (CallError Fault) α

namespace Execution

variable {S C K α : Type} [Site S C]

/-- The execution of an operation within a time. -/
def start (client : Client) (timeout : Millis) : Execution K :=
  { client, phase := .entering timeout }

/-- The end of an execution. -/
def finish (e : Execution K) (result : Except (CallError Fault) α) :
    Step (Execution K) (Outcome α) :=
  .ends ⟨e.attempts, result⟩

/-- Waits unless the time is up. -/
def waitOrExpire (w : World S C) (e : Execution K) : Step (Execution K) (Outcome α) :=
  if e.deadline ≤ w.now then e.finish (.error .operationTimeout) else .waits e

/-- One step of an execution. `opens` tells whether it opens a turn of the call. -/
def step (op : Operation (World S C) C K α) (w : World S C) (opens : Bool) (e : Execution K) :
    World S C × Step (Execution K) (Outcome α) :=
  match e.phase with
  | .entering timeout =>
    if w.isCanceled e.client.context then (w, e.finish (.error .contextCanceled))
    else (w, .moves { e with deadline := w.now + timeout, phase := .seeking })
  | phase =>
    if opens && w.isCanceled e.client.context then (w, e.finish (.error .contextCanceled))
    else
      match phase with
      | .entering _ => (w, .moves e)
      | .seeking =>
        if !w.attached then (w, e.finish (.error .clientDetached))
        else
          match w.connection? e.client.id with
          | some c =>
            (w, .moves { e with
              attempts := e.attempts + 1, phase := .running (op.begin e.attempts c) })
          | none => (w, .moves { e with phase := .resting (w.after e.client.retryWait) })
      | .running state =>
        let r := op.step w state
        match r.2 with
        | .waits state => (r.1, waitOrExpire r.1 { e with phase := .running state })
        | .moves state => (r.1, .moves { e with phase := .running state })
        | .ends (.ok a) => (r.1, e.finish (.ok a))
        | .ends (.error fault) =>
          if fault.isNetwork then
            (r.1.report, .moves { e with phase := .resting (r.1.after e.client.retryWait) })
          else (r.1, e.finish (.error (.operation fault)))
      | .resting till =>
        if w.hasHappened till then (w, .moves { e with phase := .seeking })
        else (w, waitOrExpire w e)

/-- What an execution waits for. -/
def wakes (op : Operation (World S C) C K α) (e : Execution K) : List Event :=
  .cancellation e.client.context ::
    match e.phase with
    | .entering _ | .seeking => []
    | .running state => .time e.deadline :: op.wakes state
    | .resting till => [.time e.deadline, till]

/-- Whether an execution holds the supervisor. -/
def holds (e : Execution K) : Bool :=
  match e.phase with
  | .running _ => true
  | _ => false

end Execution

end Reconnect
