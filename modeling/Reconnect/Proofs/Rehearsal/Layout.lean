import Reconnect.Broker.Arrangement
import Reconnect.Proofs.Table
import Reconnect.Rehearsal.Hub

/-!
# The layout of a broker

What a topology is about at a broker are the exchanges with their kinds, the queues with their
options, and the bindings (`Layout`). A request of a topology changes the layout as its step says,
is refused because it binds a queue to an exchange that is not there, or fails with the network and
changes nothing: `request_served` says which.

The layout of a record is what its declarations make of an empty broker, one after the other.
-/

namespace Reconnect

open Broker

namespace Broker.Declaration

/-- The bindings that are declared. -/
def bindings : Declaration → List QueueBinding
  | .exchange _ => []
  | .queue _ bindings => bindings

end Broker.Declaration

namespace Rehearsal

/-- The options of a queue that a broker keeps. -/
structure Shape where
  durable : Bool
  exclusive : Bool
  deriving DecidableEq

def Queue.shape (q : Queue) : Shape := ⟨q.durable, q.exclusive⟩

/-- The exchange of a name that a declaration makes. -/
def exchangeOf? (d : Declaration) (name : String) : Option Exchange :=
  match d with
  | .exchange x => if name = x.name then some ⟨x.kind, x.durable⟩ else none
  | .queue _ _ => none

/-- The options of the queue of a name that a declaration makes. -/
def shapeOf? (d : Declaration) (name : String) : Option Shape :=
  match d with
  | .exchange _ => none
  | .queue q _ => if name = q.name then some ⟨q.durable, q.exclusive⟩ else none

/-- Whether a declaration makes a binding. -/
def Binds (d : Declaration) (b : Binding) : Prop :=
  b.queue = d.name ∧ ⟨b.routingKey, b.exchange⟩ ∈ d.bindings

/-- The exchanges, queues and bindings of a broker. -/
@[ext] structure Layout where
  exchange? : String → Option Exchange
  queue? : String → Option Shape
  bound : Binding → Prop

/-- The layout of a broker. -/
def Hub.layout (h : Hub) : Layout where
  exchange? := h.exchanges.get?
  queue? name := (h.queues.get? name).map Queue.shape
  bound b := b ∈ h.bindings

namespace Layout

/-- The layout of a broker that has nothing. -/
def empty : Layout := ⟨fun _ => none, fun _ => none, fun _ => False⟩

/-- Whether every exchange is there to which a declaration binds a queue. -/
def Admits (ℓ : Layout) (d : Declaration) : Prop :=
  ∀ b ∈ d.bindings, (ℓ.exchange? b.exchange).isSome = true

/-- The layout after a declaration. What is there already stays as it is. -/
def declare (ℓ : Layout) (d : Declaration) : Layout where
  exchange? name := (ℓ.exchange? name).or (exchangeOf? d name)
  queue? name := (ℓ.queue? name).or (shapeOf? d name)
  bound b := ℓ.bound b ∨ Binds d b

/-- The layout without an exchange and its bindings. -/
def deleteExchange (ℓ : Layout) (name : String) : Layout where
  exchange? other := if other = name then none else ℓ.exchange? other
  queue? := ℓ.queue?
  bound b := ℓ.bound b ∧ b.exchange ≠ name

/-- The layout without a queue and its bindings. -/
def deleteQueue (ℓ : Layout) (name : String) : Layout where
  exchange? := ℓ.exchange?
  queue? other := if other = name then none else ℓ.queue? other
  bound b := ℓ.bound b ∧ b.queue ≠ name

/-- The layout after a step of a topology. Deleting a queue that is not there does nothing. -/
def after (ℓ : Layout) : TopologyStep → Layout
  | .declare d | .restore d => ℓ.declare d
  | .delete false name => ℓ.deleteExchange name
  | .delete true name => if (ℓ.queue? name).isSome then ℓ.deleteQueue name else ℓ

/-- Whether a step of a topology is not refused. -/
def Allows (ℓ : Layout) : TopologyStep → Prop
  | .declare d | .restore d => ℓ.Admits d
  | .delete _ _ => True

/-- Whether no step of a list is refused, one being made after the other. -/
def Passes : Layout → List TopologyStep → Prop
  | _, [] => True
  | ℓ, s :: rest => ℓ.Allows s ∧ (ℓ.after s).Passes rest

theorem passes_append {ℓ : Layout} {steps rest : List TopologyStep} :
    ℓ.Passes (steps ++ rest) ↔ ℓ.Passes steps ∧ (steps.foldl after ℓ).Passes rest := by
  induction steps generalizing ℓ with
  | nil => exact ⟨fun h => ⟨trivial, h⟩, And.right⟩
  | cons s steps ih =>
    rw [List.cons_append, Passes, Passes, ih, and_assoc]
    rfl

end Layout

/-! ## Requests -/

namespace Hub

variable {h : Hub} {c : Nat}

theorem fault?_cases (h : Hub) (c : Nat) : h.fault? c = none ∨ h.fault? c = some .network := by
  rw [fault?, Network.fault?]
  cases h.isOpen c <;> cases h.network.isUp <;> simp

theorem serve_of_up {α : Type} (hf : h.fault? c = none) (r : Hub × Except Fault α) :
    h.serve c r = r := by
  rw [serve, hf]

theorem serve_of_fault {α : Type} (hf : h.fault? c = some .network) (r : Hub × Except Fault α) :
    h.serve c r = (h, .error .network) := by
  rw [serve, hf]

theorem get?_insertNew {α : Type} (t : Table String α) (k k' : String) (a : α) :
    (t.insertNew k a).get? k' = (t.get? k').or (if k' = k then some a else none) := by
  rw [Table.insertNew, Table.contains]
  by_cases hk : k' = k
  · subst hk
    cases hg : t.get? k' <;> simp [hg]
  · cases t.get? k <;> simp [hk]

theorem layout_declareExchange (h : Hub) (x : ExchangeOptions) :
    (h.declareExchange x).layout = h.layout.declare (.exchange x) := by
  refine Layout.ext (funext fun name => ?_) (funext fun name => ?_) (funext fun b => ?_)
  · exact get?_insertNew h.exchanges x.name name _
  · simp [layout, declareExchange, Layout.declare, shapeOf?]
  · simp [layout, declareExchange, Layout.declare, Binds, Declaration.bindings]

theorem layout_removeExchange (h : Hub) (name : String) :
    (h.removeExchange name).layout = h.layout.deleteExchange name := by
  refine Layout.ext (funext fun other => ?_) rfl (funext fun b => ?_)
  · simp [layout, removeExchange, Layout.deleteExchange]
  · simp [layout, removeExchange, Layout.deleteExchange]

theorem layout_removeQueue (h : Hub) (name : String) :
    (h.removeQueue name).layout = h.layout.deleteQueue name := by
  refine Layout.ext rfl (funext fun other => ?_) (funext fun b => ?_)
  · by_cases hn : other = name <;> simp [layout, removeQueue, Layout.deleteQueue, hn]
  · simp [layout, removeQueue, Layout.deleteQueue]

/-- Binding a queue to an exchange that is there. -/
theorem bind_of_contains {queue : String} {b : QueueBinding}
    (hq : h.queues.contains queue = true) (hx : h.exchanges.contains b.exchange = true) :
    ∃ bindings, h.bind queue b = ({ h with bindings }, .ok ()) ∧
      ∀ b', b' ∈ bindings ↔
        b' ∈ h.bindings ∨ b'.queue = queue ∧ ⟨b'.routingKey, b'.exchange⟩ = b := by
  have heq : ∀ b' : Binding, b' = ⟨queue, b.exchange, b.routingKey⟩ ↔
      b'.queue = queue ∧ ⟨b'.routingKey, b'.exchange⟩ = b := by
    rintro ⟨queue', exchange, key⟩
    rcases b with ⟨key', exchange'⟩
    simp [and_comm]
  simp only [bind, hq, hx, Bool.not_true, Bool.false_eq_true, if_false]
  split
  case isTrue hc =>
    refine ⟨h.bindings, rfl, fun b' => ⟨.inl, ?_⟩⟩
    rw [← heq]
    rintro (hb | rfl)
    · exact hb
    · exact List.contains_iff_mem.1 hc
  case isFalse =>
    refine ⟨h.bindings ++ [⟨queue, b.exchange, b.routingKey⟩], rfl, fun b' => ?_⟩
    rw [List.mem_append, List.mem_singleton, heq]

/-- What comes of binding a queue to one exchange after the other. -/
theorem bindAll_cases {queue : String} (hf : h.fault? c = none)
    (hq : h.queues.contains queue = true) (bs : List QueueBinding) :
    (∀ b ∈ bs, h.exchanges.contains b.exchange = true) ∧
        (∃ bindings, bindAll h c queue bs = ({ h with bindings }, .ok .done) ∧
          ∀ b, b ∈ bindings ↔
            b ∈ h.bindings ∨ b.queue = queue ∧ ⟨b.routingKey, b.exchange⟩ ∈ bs) ∨
      ¬ (∀ b ∈ bs, h.exchanges.contains b.exchange = true) ∧
        ∃ h' b f, bindAll h c queue bs = (h', .ok (.refused b f)) := by
  induction bs generalizing h with
  | nil => exact .inl ⟨nofun, h.bindings, rfl, by simp⟩
  | cons b rest ih =>
    have hserve : Channels.bindQueue h c queue b = h.bind queue b := serve_of_up hf _
    rw [bindAll, hserve]
    cases hx : h.exchanges.contains b.exchange with
    | true =>
      obtain ⟨bindings, hbind, hmem⟩ := bind_of_contains hq hx
      rw [hbind]
      -- a binding more makes no difference to what can be bound
      rcases ih (h := { h with bindings }) hf hq with
        ⟨hall, bindings', hrest, hmem'⟩ | ⟨hnot, h', b', f, hrest⟩
      · refine .inl ⟨by simpa [hx] using hall, bindings', hrest, fun b' => ?_⟩
        rw [hmem', hmem, or_assoc, ← and_or_left, List.mem_cons]
      · exact .inr ⟨by simpa [hx] using hnot, h', b', f, hrest⟩
    | false =>
      have hbind : h.bind queue b = (h, .error (notFound "exchange" b.exchange)) := by
        simp [bind, hq, hx]
      rw [hbind]
      exact .inr ⟨by simp [hx], h, b, _, rfl⟩

end Hub

/-- How a broker answers the request of a step of a topology. -/
inductive Served (h : Hub) (c : Nat) (s : TopologyStep) :
    Hub × Except Fault (Broker.Reply Nat) → Prop
  | fault (hf : h.fault? c = some .network) : Served h c s (h, .error .network)
  | done {h' : Hub} (hf : h.fault? c = none) (ha : h.layout.Allows s)
      (hl : h'.layout = h.layout.after s) (hn : h'.network = h.network)
      (hc : h'.closedChannels = h.closedChannels) : Served h c s (h', .ok .done)
  | refused {h' : Hub} {b : QueueBinding} {f : Fault} (hf : h.fault? c = none)
      (ha : ¬ h.layout.Allows s) : Served h c s (h', .ok (.refused b f))

section Requests

variable {h : Hub} {c : Nat}

/-- Without the network nothing is served. -/
theorem request_of_fault (hf : h.fault? c = some .network) (s : TopologyStep) :
    request h c s.request = (h, .error .network) := by
  have hdeclare : ∀ d : Declaration, request h c d.request = (h, .error .network) := by
    intro d
    cases d with
    | exchange x =>
      simp only [Declaration.request, request, Channels.declareExchange, Hub.serve_of_fault hf]
      rfl
    | queue q bs =>
      simp only [Declaration.request, request, Channels.declareQueue, Hub.serve_of_fault hf]
  cases s with
  | declare d => exact hdeclare d
  | restore d => exact hdeclare d
  | delete queue name =>
    cases queue <;>
      simp only [TopologyStep.request, request, Channels.deleteExchange, Channels.deleteQueue,
        Hub.serve_of_fault hf] <;> rfl

theorem request_declareExchange (hf : h.fault? c = none) (x : ExchangeOptions) :
    request h c (.declareExchange x) = (h.declareExchange x, .ok .done) := by
  simp only [request, Channels.declareExchange, Hub.serve_of_up hf]
  rfl

theorem request_deleteExchange (hf : h.fault? c = none) (name : String) :
    request h c (.deleteExchange name) = (h.removeExchange name, .ok .done) := by
  simp only [request, Channels.deleteExchange, Hub.serve_of_up hf]
  rfl

/-- A queue that is deleted whatever its state is gone, unless it was not there. -/
theorem request_deleteQueue (hf : h.fault? c = none) (name : String) :
    request h c (.deleteQueue name false false) =
      (if h.queues.contains name then h.removeQueue name else h, .ok .done) := by
  have hdelete : h.deleteQueue name false false =
      (if h.queues.contains name then h.removeQueue name else h, .ok ()) := by
    rw [Hub.deleteQueue, Table.contains]
    cases h.queues.get? name <;> rfl
  simp only [request, Channels.deleteQueue, Hub.serve_of_up hf, hdelete]
  rfl

/-- A queue is declared with all its bindings, or a binding is refused. -/
theorem request_declareQueue (hf : h.fault? c = none) (q : QueueOptions) (bs : List QueueBinding) :
    h.layout.Admits (.queue q bs) ∧
        (∃ h', request h c (.declareQueue q bs) = (h', .ok .done) ∧
          h'.layout = h.layout.declare (.queue q bs) ∧ h'.network = h.network ∧
          h'.closedChannels = h.closedChannels) ∨
      ¬ h.layout.Admits (.queue q bs) ∧
        ∃ h' b f, request h c (.declareQueue q bs) = (h', .ok (.refused b f)) := by
  have hq : (h.declareQueue q).queues.contains q.name = true := by
    rw [Table.contains, Hub.declareQueue, Hub.get?_insertNew, if_pos rfl]
    cases h.queues.get? q.name <;> rfl
  have hreq : request h c (.declareQueue q bs) = bindAll (h.declareQueue q) c q.name bs := by
    simp only [request, Channels.declareQueue, Hub.serve_of_up hf]
  rw [hreq]
  -- the exchanges are those from before the declaration
  rcases Hub.bindAll_cases (h := h.declareQueue q) hf hq bs with
    ⟨hall, bindings, hbind, hmem⟩ | ⟨hnot, hrefused⟩
  · refine .inl ⟨hall, _, hbind, ?_, rfl, rfl⟩
    refine Layout.ext (funext fun name => ?_) (funext fun name => ?_) (funext fun b => ?_)
    · simp [Hub.layout, Hub.declareQueue, Layout.declare, exchangeOf?]
    · simp only [Hub.layout, Hub.declareQueue, Hub.get?_insertNew, Layout.declare, shapeOf?]
      cases h.queues.get? name with
      | some q' => simp
      | none => by_cases hn : name = q.name <;> simp [hn, Queue.shape]
    · exact propext (hmem b)
  · exact .inr ⟨hnot, hrefused⟩

/-- A declaration takes effect unless it binds a queue to an exchange that is not there. -/
theorem served_declaration (hf : h.fault? c = none) {s : TopologyStep} {d : Declaration}
    (hs : s = .declare d ∨ s = .restore d) : Served h c s (request h c d.request) := by
  have hallows : h.layout.Allows s ↔ h.layout.Admits d := by
    rcases hs with rfl | rfl <;> rfl
  have hafter : h.layout.after s = h.layout.declare d := by
    rcases hs with rfl | rfl <;> rfl
  cases d with
  | exchange x =>
    rw [Declaration.request, request_declareExchange hf]
    refine .done hf (hallows.2 nofun) ?_ rfl rfl
    rw [Hub.layout_declareExchange, hafter]
  | queue q bs =>
    rw [Declaration.request]
    rcases request_declareQueue hf q bs with
      ⟨ha, h', hreq, hl, hn, hc⟩ | ⟨hnot, h', b, f, hreq⟩
    · rw [hreq]
      exact .done hf (hallows.2 ha) (hl.trans hafter.symm) hn hc
    · rw [hreq]
      exact .refused hf fun ha => hnot (hallows.1 ha)

/-- What a step of a topology asks of a broker takes effect, is refused, or fails with the
network. -/
theorem request_served (h : Hub) (c : Nat) (s : TopologyStep) :
    Served h c s (request h c s.request) := by
  rcases h.fault?_cases c with hf | hf
  case inr =>
    rw [request_of_fault hf]
    exact .fault hf
  cases s with
  | declare d => exact served_declaration hf (.inl rfl)
  | restore d => exact served_declaration hf (.inr rfl)
  | delete queue name =>
    cases queue with
    | false =>
      rw [TopologyStep.request, request_deleteExchange hf]
      exact .done hf trivial (h.layout_removeExchange name) rfl rfl
    | true =>
      rw [TopologyStep.request, request_deleteQueue hf, Table.contains]
      cases hq : h.queues.get? name with
      | none =>
        refine .done hf trivial ?_ rfl rfl
        simp [Layout.after, Hub.layout, hq]
      | some q =>
        refine .done hf trivial ?_ rfl rfl
        rw [Option.isSome_some, if_pos rfl, Hub.layout_removeQueue]
        simp [Layout.after, Hub.layout, hq]

end Requests

end Rehearsal

end Reconnect
