import Reconnect.Fault
import Reconnect.Supervisor.Call
import Reconnect.Timeouts

/-!
# The world of a schedule

Calls run in a world that holds a clock, the contexts that have been canceled, a supervisor, and
the site of its backing store. Time stands still while a call can go on. A call that pauses for no
time lets all others go first: at one time of the clock the calls have one round after another. A
site says how connections are opened, asked and closed there.
-/

namespace Reconnect

/-- How an attempt at a site goes: how long it takes, and how it fails, if it does. -/
structure Attempt where
  delay : Millis := 0
  fault : Option Fault := none
  deriving DecidableEq, Repr, Inhabited

/-- A site at which connections of the type `C` are opened. -/
class Site (S : Type) (C : outParam Type) where
  /-- Starts to open a connection. -/
  dial : S → S × Attempt
  /-- The connection of an attempt that succeeded. -/
  connect : S → S × C
  /-- Asks a connection for a sign of life. -/
  ping : S → C → S × Attempt
  /-- Closes a connection. -/
  close : S → C → S
  /-- Closes the transport that the connections share. -/
  shut : S → S
  /-- Whether a stream of messages has something to say. -/
  ready : S → Nat → Bool

/-- The state of everything that calls share. -/
structure World (S C : Type) where
  /-- The time on the clock. -/
  now : Millis := 0
  /-- How many rounds the calls have had at this time. -/
  round : Nat := 0
  /-- The contexts that have been canceled. -/
  canceled : List String := []
  /-- How many identifiers have been drawn. -/
  drawn : Nat := 0
  /-- What the next throws of the dice come to; then they come to zero. -/
  dice : List Nat := []
  site : S
  supervisor : Supervisor C := {}
  /-- The context in which the supervisor recovers. -/
  context : String := "root"
  /-- The pause between two attempts to recover. -/
  retryWait : Millis := 200
  /-- Whether the owner of the supervisor holds it. -/
  owned : Bool := true
  /-- Whether anything still holds the supervisor. -/
  attached : Bool := true
  /-- How many recoveries have been started and wait for their first turn. -/
  started : Nat := 0

/-- What a call waits for. -/
inductive Event where
  /-- That the clock reaches a time. -/
  | time (t : Millis)
  /-- That the calls have had a number of rounds at a time, or that the time is over. -/
  | round (t : Millis) (n : Nat)
  /-- That a context is canceled. -/
  | cancellation (context : String)
  /-- That a stream has something to say. -/
  | mail (stream : Nat)
  deriving DecidableEq, Repr

/-- What one step of a call comes to. -/
inductive Step (σ ρ : Type) where
  /-- The call waits. -/
  | waits (state : σ)
  /-- The call can go on at once. -/
  | moves (state : σ)
  /-- The call has ended. -/
  | ends (result : ρ)

/-- The step of an enclosing call. -/
def Step.lift {σ τ ρ : Type} (f : σ → τ) : Step σ ρ → Step τ ρ
  | .waits s => .waits (f s)
  | .moves s => .moves (f s)
  | .ends r => .ends r

namespace World

variable {S C : Type}

/-- Whether a context has been canceled. -/
def isCanceled (w : World S C) (context : String) : Bool := w.canceled.contains context

/-- Cancels a context. -/
def cancel (w : World S C) (context : String) : World S C :=
  if w.isCanceled context then w else { w with canceled := context :: w.canceled }

/-- The end of a pause that begins now. -/
def after (w : World S C) (pause : Millis) : Event :=
  if pause = 0 then .round w.now (w.round + 1) else .time (w.now + pause)

/-- The world with the clock set to a later time. -/
def setClock (w : World S C) (t : Millis) : World S C := { w with now := t, round := 0 }

/-- Draws a fresh identifier. -/
def draw (w : World S C) : World S C × Identifier :=
  ({ w with drawn := w.drawn + 1 }, ⟨w.drawn + 1⟩)

/-- Throws the dice. -/
def roll (w : World S C) : World S C × Nat := ({ w with dice := w.dice.tail }, w.dice.headD 0)

/-- The connection that a client can work on. -/
def connection? (w : World S C) (id : Identifier) : Option C :=
  if w.attached then w.supervisor.connection? id else none

variable [Site S C]

/-- Whether an event has come about. -/
def hasHappened (w : World S C) : Event → Bool
  | .time t => t ≤ w.now
  | .round t n => t < w.now || (t == w.now && n ≤ w.round)
  | .cancellation context => w.isCanceled context
  | .mail stream => Site.ready w.site stream

/-- Carries out what one stage of a call of the supervisor came to. -/
def carryOut (w : World S C) (t : Supervisor.Turn C) : World S C :=
  let site := t.closed.foldl Site.close w.site
  { w with
    site := if t.shutsTransport then Site.shut site else site
    supervisor := t.supervisor
    started := if t.startsRecovery then w.started + 1 else w.started }

/-- Reports a network failure, if anything still holds the supervisor. -/
def report (w : World S C) : World S C :=
  if w.attached then w.carryOut (w.supervisor.report []) else w

end World

end Reconnect
