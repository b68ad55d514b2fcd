import Reconnect.Broker.Consumption
import Reconnect.Proofs.Rehearsal.Balance

/-!
# Shifts of a consumer

In a shift one consumption runs at a broker. Between two of its steps time may pass, messages may
be enqueued, and the broker may be told to fail the next settlements; a handler may take any time.
The network is up and the consumption is not canceled.

A shift also keeps book of the calls of the handler: the message and the verdict of each.
-/

namespace Reconnect.Rehearsal

open Broker

/-- A world with a broker. -/
abbrev HubWorld := World (Station Hub) Nat

/-- A handler that leaves alone what a consumption goes by, and puts no message back. -/
structure Calm (h : Handler HubWorld) : Prop where
  store : ∀ w n m, (h.handle w n m).1.site.store = w.site.store
  supervisor : ∀ w n m, (h.handle w n m).1.supervisor = w.supervisor
  attached : ∀ w n m, (h.handle w n m).1.attached = w.attached
  canceled : ∀ w n m, (h.handle w n m).1.canceled = w.canceled
  verdict : ∀ w n m, (h.handle w n m).2.2 ≠ .requeue

/-- A consumption that is to begin, and the world in which it begins. -/
structure Assignment where
  world : HubWorld
  consumer : Consumer
  context : String
  queue : String

/-- A consumption on its way, or its result. -/
structure Shift where
  world : HubWorld
  call : Consumption Nat ⊕ Consumption.Result
  /-- The calls of the handler. -/
  calls : List Judged := []

/-- The consumption of an assignment before its first step. -/
def Assignment.consumption (a : Assignment) : Consumption Nat :=
  { consumer := a.consumer, context := a.context, queue := a.queue }

/-- The shift of an assignment before the first move. -/
def Assignment.start (a : Assignment) : Shift := { world := a.world, call := .inl a.consumption }

namespace Shift

/-- What can happen next. -/
inductive Move where
  /-- The consumption takes a step. -/
  | work (opens : Bool)
  /-- Time passes on the clock and on the wall clock. -/
  | pass (clock wall : Millis)
  /-- The broker is told to fail a number of settlements. -/
  | fail (count : Nat)
  /-- A message is enqueued. -/
  | enqueue (m : Message)

namespace Move

/-- How much time passes on the wall clock. -/
def elapsed : Move → Millis
  | .pass _ wall => wall
  | _ => 0

/-- The message that is enqueued, if any. -/
def enqueued : Move → List Message
  | .enqueue m => [m]
  | _ => []

/-- How many steps the consumption takes. -/
def steps : Move → Nat
  | .work _ => 1
  | _ => 0

/-- Whether a move brings neither a message nor a failure. -/
def isQuiet : Move → Bool
  | .work _ | .pass _ _ => true
  | .fail _ | .enqueue _ => false

end Move

/-- How much time passes on the wall clock in a list of moves. -/
def elapsed : List Move → Millis
  | [] => 0
  | move :: rest => move.elapsed + elapsed rest

/-- The messages that are enqueued in a list of moves. -/
def enqueued (moves : List Move) : List Message := moves.flatMap Move.enqueued

/-- How many steps the consumption takes in a list of moves. -/
def steps : List Move → Nat
  | [] => 0
  | move :: rest => move.steps + steps rest

theorem elapsed_append (moves rest : List Move) :
    elapsed (moves ++ rest) = elapsed moves + elapsed rest := by
  induction moves with
  | nil => exact (Nat.zero_add _).symm
  | cons move moves ih => rw [List.cons_append, elapsed, elapsed, ih, Nat.add_assoc]

/-- The world once a handler that is at work has come to its verdict. -/
def ripe (w : HubWorld) (c : Consumption Nat) : HubWorld :=
  match c.phase with
  | .handling _ _ _ _ due => if w.now < due then w.setClock due else w
  | _ => w

@[simp] theorem ripe_site (w : HubWorld) (c : Consumption Nat) : (ripe w c).site = w.site := by
  rw [ripe]
  split
  · split <;> rfl
  · rfl

theorem le_ripe_now (w : HubWorld) {c : Consumption Nat} {channel stream : Nat} {d : Delivery}
    {v : Verdict} {due : Millis} (hp : c.phase = .handling channel stream d v due) :
    due ≤ (ripe w c).now := by
  rw [ripe]
  rw [hp]
  dsimp only
  split
  case isTrue => exact Nat.le_refl due
  case isFalse hlt => exact Nat.le_of_not_lt hlt

/-- The call of the handler that a step has begun. -/
def called (c : Consumption Nat) (s : Step (Consumption Nat) Consumption.Result) : List Judged :=
  match s with
  | .moves c' =>
    match c'.phase with
    | .handling _ _ d v _ => if c.handled < c'.handled then [(d.message, v)] else []
    | _ => []
  | _ => []

/-- A consumption after a step. -/
def goOn : Step (Consumption Nat) Consumption.Result → Consumption Nat ⊕ Consumption.Result
  | .waits c | .moves c => .inl c
  | .ends a => .inr a

/-- Changes the broker of a world. -/
def change (w : HubWorld) (f : Hub → Hub) : HubWorld := withStore w (f w.site.store)

/-- A broker when some time has passed on the wall clock. -/
def later (wall : Millis) (h : Hub) : Hub :=
  { h with network := { h.network with wall := h.network.wall + wall } }

/-- One move at a queue. -/
def step (h : Handler HubWorld) (queue : String) (y : Shift) : Move → Shift
  | .work opens =>
    match y.call with
    | .inl c =>
      let r := c.step h (ripe y.world c) opens
      { world := r.1, call := goOn r.2, calls := y.calls ++ called c r.2 }
    | .inr _ => y
  | .pass clock wall =>
    { y with world := change (y.world.setClock (y.world.now + clock)) (later wall) }
  | .fail count =>
    { y with world := change y.world fun b => { b with failingSettlements := count } }
  | .enqueue m => { y with world := change y.world (·.enqueue queue m) }

/-- The shift that a list of moves leads to. -/
def run (h : Handler HubWorld) (a : Assignment) (moves : List Move) : Shift :=
  moves.foldl (step h a.queue) a.start

end Shift

/-! ## Worlds in which a shift can go well -/

/-- A world in which an assignment can begin: its client has an open channel, and its queue has no
consumer yet. -/
structure Assignment.Ready (a : Assignment) (waiting : List Message) : Prop where
  attached : a.world.attached = true
  connected : ∃ c, a.world.connection? a.consumer.client.client.id = some c ∧
    a.world.site.store.isOpen c = true
  wanted : a.world.isCanceled a.context = false
  running : a.world.isCanceled a.consumer.client.client.context = false
  up : a.world.site.store.network.fault? = none
  unfed : a.world.site.store.Unfed a.queue waiting

/-- A world that has become of another one while the client kept its channel and the network was
up. -/
structure Steady (w₀ : HubWorld) (t : Millis) (w : HubWorld) : Prop where
  supervisor : w.supervisor = w₀.supervisor
  attached : w.attached = w₀.attached
  canceled : w.canceled = w₀.canceled
  closed : w.site.store.closedChannels = w₀.site.store.closedChannels
  network : w.site.store.network =
    { w₀.site.store.network with wall := w₀.site.store.network.wall + t }

namespace Steady

variable {w₀ w : HubWorld} {t : Millis} {b : Hub}

theorem refl (w : HubWorld) : Steady w 0 w := ⟨rfl, rfl, rfl, rfl, rfl⟩

theorem withStore (h : Steady w₀ t w) (hc : b.closedChannels = w.site.store.closedChannels)
    (hn : b.network = w.site.store.network) : Steady w₀ t (withStore w b) :=
  ⟨h.supervisor, h.attached, h.canceled, hc.trans h.closed, hn.trans h.network⟩

theorem alike (h : Steady w₀ t w) (hb : w.site.store.Alike b) :
    Steady w₀ t (Broker.withStore w b) :=
  h.withStore hb.closedChannels hb.network

theorem handle {h : Handler HubWorld} (hh : Calm h) (hw : Steady w₀ t w) (n : Nat) (m : Received) :
    Steady w₀ t (h.handle w n m).1 := by
  refine ⟨?_, ?_, ?_, ?_, ?_⟩
  · rw [hh.supervisor, hw.supervisor]
  · rw [hh.attached, hw.attached]
  · rw [hh.canceled, hw.canceled]
  · rw [hh.store, hw.closed]
  · rw [hh.store, hw.network]

theorem setClock (h : Steady w₀ t w) (time : Millis) : Steady w₀ t (w.setClock time) :=
  ⟨h.supervisor, h.attached, h.canceled, h.closed, h.network⟩

theorem ripe (h : Steady w₀ t w) (c : Consumption Nat) : Steady w₀ t (Shift.ripe w c) := by
  rw [Shift.ripe]
  split
  · split
    · exact h.setClock _
    · exact h
  · exact h

theorem draw (h : Steady w₀ t w) : Steady w₀ t w.draw.1 :=
  ⟨h.supervisor, h.attached, h.canceled, h.closed, h.network⟩

theorem pass (h : Steady w₀ t w) (clock wall : Millis) :
    Steady w₀ (t + wall) (Shift.change (w.setClock clock) (Shift.later wall)) := by
  refine ⟨h.supervisor, h.attached, h.canceled, h.closed, ?_⟩
  have hn : (Shift.later wall w.site.store).network =
      { w.site.store.network with wall := w.site.store.network.wall + wall } := rfl
  apply hn.trans
  rw [h.network, Nat.add_assoc]

/-! What stays as it was when the assignment began. -/

variable {a : Assignment} {waiting : List Message}

theorem isCanceled (h : Steady a.world t w) (context : String) :
    w.isCanceled context = a.world.isCanceled context := by
  rw [World.isCanceled, h.canceled]
  rfl

theorem connection? (h : Steady a.world t w) (id : Identifier) :
    w.connection? id = a.world.connection? id := by
  rw [World.connection?, h.attached, h.supervisor]
  rfl

theorem isOpen (h : Steady a.world t w) (c : Nat) :
    w.site.store.isOpen c = a.world.site.store.isOpen c := by
  rw [Hub.isOpen, h.closed]
  rfl

theorem wall (h : Steady a.world t w) :
    w.site.store.network.wall = a.world.site.store.network.wall + t := by
  rw [h.network]

/-- A network that is up stays up as time passes. -/
theorem up (hr : a.Ready waiting) (h : Steady a.world t w) :
    w.site.store.network.fault? = none := by
  have hup := hr.up
  rw [Network.fault?, ite_eq_left_iff, Bool.not_eq_true] at hup
  have hisUp : a.world.site.store.network.isUp = true := by
    cases hu : a.world.site.store.network.isUp with
    | true => rfl
    | false => exact absurd (hup hu) nofun
  rw [Network.isUp, Bool.and_eq_true] at hisUp
  rw [h.network, Network.fault?, if_pos]
  rw [Network.isUp, Bool.and_eq_true]
  refine ⟨hisUp.1, ?_⟩
  cases he : a.world.site.store.network.outageEnds with
  | none => rfl
  | some ends =>
    have hle := hisUp.2
    rw [he, Option.all_some, decide_eq_true_eq] at hle
    exact decide_eq_true (Nat.le_trans hle (Nat.le_add_right _ t))

end Steady

end Reconnect.Rehearsal
