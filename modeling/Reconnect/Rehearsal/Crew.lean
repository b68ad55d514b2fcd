import Reconnect.Rehearsal.Behaviour
import Reconnect.Rehearsal.Cue
import Reconnect.Rehearsal.Network
import Reconnect.Rehearsal.Script

/-!
# Rehearsing a supervisor and its clients

A crew is a number of clients of one supervisor, at a site that stands in for a store.
-/

namespace Reconnect.Rehearsal

/-- A site at which a connection can be looked at. -/
class Inspected (S : Type) (C : outParam Type) where
  /-- The fault that an operation on a connection runs into. -/
  fault? : S → C → Option Fault

instance : Inspected Network Line := ⟨fun n _ => n.fault?⟩

instance : Inspected Script Nat := ⟨fun s c => if s.gone.contains c then some .network else none⟩

/-- A site with the clients that were made there. -/
structure Crew (S C : Type) where
  site : S
  /-- What new clients are made with. -/
  timeouts : Timeouts
  /-- Whether clients are made without the help of the supervisor's owner. -/
  direct : Bool
  clients : List Client := []
  /-- The generation that each receiver has seen. -/
  seen : Table String Nat := .empty
  /-- The connection that was last shown for each client. -/
  shown : Table Nat C := .empty

variable {S C : Type}

instance [Site S C] : Site (Crew S C) C where
  dial w := let r := Site.dial w.site; ({ w with site := r.1 }, r.2)
  connect w := let r := Site.connect w.site; ({ w with site := r.1 }, r.2)
  ping w c := let r := Site.ping w.site c; ({ w with site := r.1 }, r.2)
  close w c := { w with site := Site.close w.site c }
  shut w := { w with site := Site.shut w.site }
  ready w n := Site.ready w.site n

/-- The operation of a client of a crew, which succeeds with the number of its attempt. -/
def crewOperation [Inspected S C] (bs : List Behaviour) :
    Operation (World (Crew S C) C) C (Acting C) Nat :=
  acting (behaviourOf bs) (fun crew c => Inspected.fault? crew.site c) fun _ n => n

/-- A call in a rehearsal of a crew. -/
inductive CrewCall (C : Type) where
  /-- A call of the supervisor, after which a new client is known. -/
  | errand (e : Errand C) (client : Option Client)
  /-- The execution of an operation. -/
  | execute (bs : List Behaviour) (e : Execution (Acting C))

/-- The result of an order in a rehearsal of a crew. -/
inductive CrewResult (S : Type) where
  | done
  | noClient
  | noSupervisor
  | executed (o : Execution.Outcome Nat)
  /-- A client, and what it says of its context and of the two kinds of faults. -/
  | client (c : Client) (canceled network application : Bool)
  /-- The generation that a new receiver sees, if there is a supervisor. -/
  | watching (generation : Option Nat)
  | noReceiver
  /-- The supervisor of a receiver is gone. -/
  | closed
  /-- Whether the generation has changed, and what it is. -/
  | changed (b : Bool) (generation : Nat)
  | notified (recovering : Bool) (cycles : Nat)
  | site (s : S)

/-- How the calls of a crew run. -/
def crewMachine [Site S C] [Inspected S C] :
    Machine (Crew S C) C (CrewCall C) (CrewResult S) where
  step w opens
    | .errand e client =>
      let r := e.step w
      match r.2 with
      | .waits e => (r.1, .waits (.errand e client))
      | .moves e => (r.1, .moves (.errand e client))
      | .ends _ =>
        let crew := r.1.site
        ({ r.1 with site := { crew with clients := crew.clients ++ client.toList } }, .ends .done)
    | .execute bs e =>
      let r := e.step (crewOperation bs) w opens
      match r.2 with
      | .waits e => (r.1, .waits (.execute bs e))
      | .moves e => (r.1, .moves (.execute bs e))
      | .ends o => (r.1, .ends (.executed o))
  wakes w
    | .errand e _ => e.wakes w
    | .execute bs e => e.wakes (crewOperation (S := S) bs)
  holds
    | .errand _ _ => true
    | .execute _ e => e.holds
  abandon w _ := w
  recovery e := .errand e none

/-- An order in a rehearsal of a crew. Clients are named by their numbers. -/
inductive CrewOrder (S : Type) where
  /-- Make a client that is not registered. -/
  | make (context : String)
  /-- Register a client, or a new one. -/
  | register (client : Option Nat) (context : String)
  | execute (client : Nat) (timeout : Option Millis) (bs : List Behaviour)
  | info (client : Nat)
  /-- Report a network failure through a client. -/
  | reportBy (client : Nat)
  /-- Renew the connection of a client through it. -/
  | renewBy (client : Nat)
  | watch (client : Nat) (label : String)
  | look (label : String)
  /-- Report a network failure a number of times. -/
  | report (times : Nat)
  | renew (client : Nat)
  | remove (client : Nat)
  | removeAll
  | destroy
  /-- Drop the owner of the supervisor. -/
  | disown
  | control (change : S → S)

/-- A rehearsal of a crew. -/
abbrev CrewSession (S C : Type) := Session (Crew S C) C (CrewCall C) (CrewResult S)

namespace CrewSession

/-- Changes the crew. -/
def change (s : CrewSession S C) (f : Crew S C → Crew S C) : CrewSession S C :=
  { s with world := { s.world with site := f s.world.site } }

/-- A new client, not yet known. -/
def draw (s : CrewSession S C) (context : String) : CrewSession S C × Client :=
  let r := s.world.draw
  ({ s with world := r.1 }, .ofTimeouts r.2 s.world.site.timeouts context)

/-- Adds a client. -/
def add (s : CrewSession S C) (c : Client) : CrewSession S C :=
  s.change fun crew => { crew with clients := crew.clients ++ [c] }

/-- What a stage of the supervisor comes to. -/
def errand (stage : Supervisor.Stage C) (client : Option Client) :
    CrewResult S ⊕ CrewCall C :=
  .inr (.errand (.ready stage) client)

/-- Notes the generation that a receiver has seen. -/
def see (s : CrewSession S C) (label : String) : CrewSession S C :=
  s.change fun crew => { crew with seen := crew.seen.insert label s.world.supervisor.generation }

variable [Site S C] [Inspected S C]

/-- What an order comes to. -/
def obey (s : CrewSession S C) (order : CrewOrder S) :
    CrewSession S C × (CrewResult S ⊕ CrewCall C) :=
  let w := s.world
  let say := fun (r : CrewResult S) => (s, (.inl r : CrewResult S ⊕ CrewCall C))
  let onClient := fun (n : Nat) (f : Client → CrewSession S C × (CrewResult S ⊕ CrewCall C)) =>
    match w.site.clients[n]? with
    | some c => f c
    | none => say .noClient
  let onSupervisor := fun (r : CrewSession S C × (CrewResult S ⊕ CrewCall C)) =>
    if w.attached then r else say .noSupervisor
  let onRegistered := fun (n : Nat) (stage : Identifier → Supervisor.Stage C) =>
    onSupervisor (match w.site.clients[n]? with
      | some c => (s, errand (stage c.id) none)
      | none => say .done)
  match order with
  | .make context => onSupervisor (let r := s.draw context; (r.1.add r.2, .inl .done))
  | .register none context =>
    if !w.owned then onClient 0 fun c => onSupervisor (s, errand (.registerOpen c.id) none)
    else if w.site.direct then
      let r := s.draw context
      (r.1.add r.2, errand (.registerOpen r.2.id) none)
    else
      let r := s.draw w.context
      (r.1, errand (.registerOpen r.2.id) (some r.2))
  | .register (some n) _ =>
    onClient n fun c => onSupervisor (s, errand (.registerOpen c.id) none)
  | .execute n timeout bs =>
    onClient n fun c => (s, .inr (.execute bs (.start c (timeout.getD c.defaultTimeout))))
  | .info n =>
    onClient n fun c => say (.client c (w.isCanceled c.context)
      (w.attached && Fault.network.isNetwork) (w.attached && (Fault.application "").isNetwork))
  | .reportBy n => onClient n fun _ => ({ s with world := w.report }, .inl .done)
  | .renewBy n =>
    onClient n fun c => if w.attached then (s, errand (.renewTake c.id) none) else say .done
  | .watch n label =>
    onClient n fun _ =>
      if w.attached then (s.see label, .inl (.watching (some w.supervisor.generation)))
      else say (.watching none)
  | .look label =>
    match w.site.seen.get? label with
    | none => say .noReceiver
    | some seen =>
      if w.attached then
        let now := w.supervisor.generation
        (s.see label, .inl (.changed (seen != now) now))
      else say .closed
  | .report times =>
    onSupervisor (
      let w := (List.range times).foldl (fun w _ => w.report) w
      ({ s with world := w }, .inl (.notified w.supervisor.recovering w.supervisor.cycles)))
  | .renew n => onRegistered n .renewTake
  | .remove n => onRegistered n .remove
  | .removeAll => onSupervisor (s, errand (.removeAll false) none)
  | .destroy => onSupervisor (s, errand (.removeAll true) none)
  | .disown =>
    let held := s.tasks.any (Session.taskHolds (crewMachine (S := S)))
    ({ s with world := Machine.reattach { w with owned := false } held }, .inl .done)
  | .control change =>
    let s := s.change fun crew => { crew with site := change crew.site }
    (s, .inl (.site s.world.site.site))

omit [Site S C] [Inspected S C] in
/-- Shows the connection of each client, and whether it is another one than the last one shown. -/
def show? [DecidableEq C] (s : CrewSession S C) : CrewSession S C × List (Option (C × Bool)) :=
  let now := s.world.site.clients.map fun c => s.world.connection? c.id
  let marked := now.zipIdx.map fun e =>
    e.1.map fun c => (c, s.world.site.shown.get? e.2 != some c)
  let shown := now.zipIdx.foldl
    (fun t e => match e.1 with
      | some c => t.insert e.2 c
      | none => t) s.world.site.shown
  (s.change fun crew => { crew with shown }, marked)

end CrewSession

end Reconnect.Rehearsal
