import Reconnect.Proofs.Broker.Publication
import Reconnect.Proofs.Rehearsal.Copies
import Reconnect.Proofs.Rehearsal.Shift
import Reconnect.Proofs.Schedule.Errand

/-!
# Publishing is all or nothing

A publication takes its steps in a world where anything may happen between them: outages, channels
that are closed, cancellations, other clients at the broker. A posting keeps the worlds before and
after each of its steps, so that what the publication does itself can be told from the rest.

A publication that has not succeeded has changed nothing at the broker with any of its steps. One
that has succeeded has published its message with its last step, and changed nothing before
(`allOrNothing_run`). In all its attempts the message has one name.
-/

namespace Reconnect.Rehearsal

open Broker

/-- A publication on its way, or its result, and the worlds before and after each of its steps. -/
structure Posting where
  world : HubWorld
  call : Publication Nat ⊕ Except (MessagingError Fault) String
  steps : List (HubWorld × HubWorld)

namespace Posting

/-- What can happen next. -/
inductive Move where
  /-- The publication takes a step. -/
  | work (opens : Bool)
  /-- Something else happens in the world. -/
  | drift (f : HubWorld → HubWorld)

/-- A publication after a step. -/
def goOn : Step (Publication Nat) (Except (MessagingError Fault) String) →
    Publication Nat ⊕ Except (MessagingError Fault) String
  | .waits p | .moves p => .inl p
  | .ends r => .inr r

/-- One move. -/
def step (y : Posting) : Move → Posting
  | .work opens =>
    match y.call with
    | .inl p => let r := p.step y.world opens; ⟨r.1, goOn r.2, y.steps ++ [(y.world, r.1)]⟩
    | .inr _ => y
  | .drift f => { y with world := f y.world }

/-- The posting that a list of moves leads to from a publication that has not begun. -/
def run (w : HubWorld) (p : Publication Nat) (moves : List Move) : Posting :=
  moves.foldl step ⟨w, .inl { p with sending := none }, []⟩

/-- Whether none of some steps has changed anything at the site. -/
def Idle (steps : List (HubWorld × HubWorld)) : Prop := ∀ s ∈ steps, s.2.site = s.1.site

/-- Whether no name is drawn in any of some steps. -/
def Drawless (steps : List (HubWorld × HubWorld)) : Prop := ∀ s ∈ steps, s.2.drawn = s.1.drawn

/-- Whether a publication has given its message a name in some steps: the caller's own, or the only
one that was drawn. -/
inductive Named (p : Publication Nat) (id : String) : List (HubWorld × HubWorld) → Prop
  | own {steps : List (HubWorld × HubWorld)} (hh : p.headers.get? messageIdHeader = some id)
      (hd : Drawless steps) : Named p id steps
  | drawn {w : HubWorld} {steps : List (HubWorld × HubWorld)}
      (hh : p.headers.get? messageIdHeader = none) (hid : w.draw.2.text = id)
      (hd : Drawless steps) : Named p id ((w, w.draw.1) :: steps)

/-- Whether a message is the one that a publication sends under a name. -/
structure Carries (p : Publication Nat) (id : String) (m : Message) : Prop where
  body : m.body = p.body
  headers : ∀ k, m.headers.get? k = if k = messageIdHeader then some id else p.headers.get? k

/-- What the steps of a publication have done by the time it has come to a state or a result. -/
inductive AllOrNothing (p : Publication Nat) :
    Publication Nat ⊕ Except (MessagingError Fault) String → List (HubWorld × HubWorld) → Prop
  | unbegun : AllOrNothing p (.inl { p with sending := none }) []
  | underway {id : String} {e : Execution Nat} {steps : List (HubWorld × HubWorld)}
      (hn : Named p id steps) (hi : Idle steps) : AllOrNothing p (.inl (p.sent id e)) steps
  | failed {err : MessagingError Fault} {steps : List (HubWorld × HubWorld)} (hi : Idle steps) :
      AllOrNothing p (.inr (.error err)) steps
  | published {id : String} {steps : List (HubWorld × HubWorld)} {w w' : HubWorld} {m : Message}
      (hn : Named p id (steps ++ [(w, w')])) (hi : Idle steps) (hc : Carries p id m)
      (hp : Publishes p.exchange p.key m w.site.store w'.site.store) :
      AllOrNothing p (.inr (.ok id)) (steps ++ [(w, w')])

/-! ## One step -/

section Steps

variable {p : Publication Nat} {id : String} {w w' : HubWorld} {opens : Bool} {e : Execution Nat}
  {steps : List (HubWorld × HubWorld)}

theorem Idle.nil : Idle [] := fun _ h => absurd h List.not_mem_nil

theorem Idle.snoc (h : Idle steps) (hs : w'.site = w.site) : Idle (steps ++ [(w, w')]) :=
  List.forall_mem_append.2 ⟨h, List.forall_mem_singleton.2 hs⟩

theorem Drawless.nil : Drawless [] := fun _ h => absurd h List.not_mem_nil

theorem Drawless.snoc (h : Drawless steps) (hd : w'.drawn = w.drawn) :
    Drawless (steps ++ [(w, w')]) :=
  List.forall_mem_append.2 ⟨h, List.forall_mem_singleton.2 hd⟩

/-- The name stays as long as no other one is drawn. -/
theorem Named.snoc (h : Named p id steps) (hd : w'.drawn = w.drawn) :
    Named p id (steps ++ [(w, w')]) := by
  cases h with
  | own hh hall => exact .own hh (hall.snoc hd)
  | drawn hh hid hall => exact .drawn hh hid (hall.snoc hd)

/-- What one step of the execution of a publication has done: nothing at the site, or it has come to
its end with the message published. -/
inductive Effect (p : Publication Nat) (id : String) (w w' : HubWorld) :
    Step (Execution Nat) (Execution.Outcome (Broker.Reply Nat)) → Prop
  | idle {s : Step (Execution Nat) (Execution.Outcome (Broker.Reply Nat))}
      (hi : w'.site = w.site)
      (hs : ∀ o, s = .ends o → ∃ err, p.verdict id o.result = .error err) : Effect p id w w' s
  | published {n : Nat} {m : Message} (hc : Carries p id m)
      (hp : Publishes p.exchange p.key m w.site.store w'.site.store) :
      Effect p id w w' (.ends ⟨n, .ok (.confirmed .accepted)⟩)

theorem posted_of_request {c : Nat} {r : Except Fault (Broker.Reply Nat)}
    (hr : (let t := request w.site.store c (p.request id); (withStore w t.1, t.2)) = (w', r)) :
    ∃ h', w' = withStore w h' ∧ Posted w.site.store c p.exchange p.key
      { body := p.body, headers := p.headers.insert messageIdHeader id } (h', r) := by
  have hposted := posted_request w.site.store c p.exchange p.key p.body
    (p.headers.insert messageIdHeader id)
  rw [Prod.mk.injEq] at hr
  refine ⟨_, hr.1.symm, ?_⟩
  rw [← hr.2]
  exact hposted

/-- An execution of the request of a publication publishes the message or does nothing, and draws no
name. -/
theorem effect_of_goes {s : Step (Execution Nat) (Execution.Outcome (Broker.Reply Nat))}
    (h : e.Goes (asking (p.request id)) w opens w' s) :
    w'.drawn = w.drawn ∧ Effect p id w w' s := by
  have hfailed : ∀ {c w₁ fault},
      (let t := request w.site.store c (p.request id); (withStore w t.1, t.2)) =
        (w₁, .error fault) → w₁ = w := by
    intro c w₁ fault hr
    obtain ⟨h', rfl, hposted⟩ := posted_of_request hr
    cases hposted
    rfl
  cases h.atOnce with
  | idle hs =>
    refine ⟨rfl, .idle rfl ?_⟩
    rintro ⟨n, err | reply⟩ rfl
    · exact ⟨_, rfl⟩
    · exact absurd rfl (hs n reply)
  | succeed hp hr =>
    obtain ⟨h', rfl, hposted⟩ := posted_of_request hr
    refine ⟨rfl, ?_⟩
    cases hposted with
    | returned =>
      refine .idle rfl ?_
      rintro o ⟨⟩
      exact ⟨_, rfl⟩
    | published hp => exact .published ⟨rfl, fun _ => SortedTable.get?_insert _ _ _ _⟩ hp
  | retry hp hr hf =>
    obtain rfl := hfailed hr
    exact ⟨World.report_drawn _, .idle (World.report_site _) nofun⟩
  | refuse hp hr hf =>
    obtain rfl := hfailed hr
    refine ⟨rfl, .idle rfl ?_⟩
    rintro o ⟨⟩
    exact ⟨_, rfl⟩

/-- One step of a publication keeps it all or nothing. -/
theorem allOrNothing_work {q : Publication Nat} (h : AllOrNothing p (.inl q) steps) (w : HubWorld)
    (opens : Bool) :
    AllOrNothing p (goOn (q.step w opens).2) (steps ++ [(w, (q.step w opens).1)]) := by
  have hg := q.goes_step w opens
  generalize (q.step w opens).1 = w' at hg ⊢
  generalize (q.step w opens).2 = s at hg ⊢
  cases h with
  | unbegun =>
    cases hg with
    | named hs hh => exact .underway (.own hh (Drawless.nil.snoc rfl)) (Idle.nil.snoc rfl)
    | names hs hh =>
      have hn : Named p w.draw.2.text [(w, w.draw.1)] := .drawn hh rfl .nil
      exact .underway hn (Idle.nil.snoc rfl)
    | waits hs => cases hs
    | moves hs => cases hs
    | ends hs => cases hs
  | @underway id e _ hn hi =>
    cases hg with
    | named hs => cases hs
    | names hs => cases hs
    | waits hs he =>
      cases hs
      obtain ⟨hd, heffect⟩ := effect_of_goes he
      cases heffect with
      | idle hsite => exact .underway (hn.snoc hd) (hi.snoc hsite)
    | moves hs he =>
      cases hs
      obtain ⟨hd, heffect⟩ := effect_of_goes he
      cases heffect with
      | idle hsite => exact .underway (hn.snoc hd) (hi.snoc hsite)
    | ends hs he =>
      cases hs
      obtain ⟨hd, heffect⟩ := effect_of_goes he
      cases heffect with
      | idle hsite hend =>
        obtain ⟨err, hverdict⟩ := hend _ rfl
        rw [hverdict]
        exact .failed (hi.snoc hsite)
      | published hc hp => exact .published (hn.snoc hd) hi ⟨hc.body, hc.headers⟩ hp

/-- One move of a posting keeps it all or nothing. -/
theorem allOrNothing_step {y : Posting} (h : AllOrNothing p y.call y.steps) (move : Move) :
    AllOrNothing p (y.step move).call (y.step move).steps := by
  cases move with
  | drift f => exact h
  | work opens =>
    obtain ⟨world, q | r, steps⟩ := y
    · exact allOrNothing_work h world opens
    · exact h

end Steps

/-- Whatever happens beside it, a publication that has not succeeded has changed nothing, and one
that has succeeded has published its message once, under the name that it returns. -/
theorem allOrNothing_run (w : HubWorld) (p : Publication Nat) (moves : List Move) :
    AllOrNothing p (run w p moves).call (run w p moves).steps := by
  have hmoves : ∀ y : Posting, AllOrNothing p y.call y.steps →
      AllOrNothing p (moves.foldl step y).call (moves.foldl step y).steps := by
    induction moves with
    | nil => exact fun y h => h
    | cons move rest ih => exact fun y h => ih (y.step move) (allOrNothing_step h move)
  exact hmoves _ .unbegun

/-- A publication whose first attempt meets an outage, to a queue of which two bindings take the
routing key. -/
example :
    let b : Hub :=
      { exchanges := .ofList [("x", ⟨.topic, true⟩)]
        queues := .ofList [("q", { durable := true, exclusive := false })]
        bindings := [⟨"q", "x", "k"⟩, ⟨"q", "x", "#"⟩] }
    let w : HubWorld := { site := { store := b }, supervisor := .enroll {} ⟨0⟩ (some 1) }
    let client : BrokerClient := ⟨⟨⟨0⟩, 1000, 1000, 10, "root"⟩, 1000⟩
    let p : Publication Nat :=
      { client, exchange := "x", key := "k", body := [7], headers := .empty }
    let online (up : Bool) (w' : HubWorld) : HubWorld :=
      { w with
        site := { store := { b with network := b.network.setOnline up } }
        now := w'.now + 10
        drawn := w'.drawn }
    let works (n : Nat) : List Move := List.replicate n (.work true)
    let y := run w p (works 3 ++ [.drift (online false)] ++ works 1 ++ [.drift (online true)] ++
      works 3)
    y.call = .inr (.ok (Identifier.text ⟨1⟩)) ∧
      (y.world.site.store.waiting "q").map Message.id? = [some (Identifier.text ⟨1⟩)] := by
  decide +kernel

end Posting

end Reconnect.Rehearsal
