import Reconnect.Proofs.Rehearsal.Redeclaration

/-!
# Declaring a queue

A topology declares a queue with its bindings at a broker in any state, the network being up and no
one else acting. The declaration succeeds if all exchanges are there, and then the queue has its old
bindings and those that were asked for (`Declared`). Otherwise the first binding whose exchange is
missing is the error; the queue goes with all its bindings if it is unused, and else is kept with
its messages, its old bindings and those that were asked for before (`Withdrawn`). In neither case
anything else changes at the broker (`Hub.SameBut`).

So a refused declaration may take away more than it has added: a queue that was there before, with
its bindings, if it has neither a message nor a consumer.
-/

namespace Reconnect.Rehearsal

open Broker

/-! ## The bindings that a broker gains -/

/-- The bindings of a broker once a queue has been bound: those that were asked for and were not
there have come behind the others, once each. -/
def Gains (queue : String) (bs : List QueueBinding) (before after : List Binding) : Prop :=
  ∃ added, after = before ++ added ∧ added.Nodup ∧
    ∀ b, b ∈ added ↔ b ∉ before ∧ b.queue = queue ∧ ⟨b.routingKey, b.exchange⟩ ∈ bs

namespace Gains

variable {queue : String} {bs bs' : List QueueBinding} {l l' l'' : List Binding}

theorem nil (queue : String) (l : List Binding) : Gains queue [] l l :=
  ⟨[], (List.append_nil l).symm, List.nodup_nil, by simp⟩

theorem trans (h : Gains queue bs l l') (h' : Gains queue bs' l' l'') :
    Gains queue (bs ++ bs') l l'' := by
  obtain ⟨added, rfl, hnodup, hmem⟩ := h
  obtain ⟨added', rfl, hnodup', hmem'⟩ := h'
  refine ⟨added ++ added', List.append_assoc _ _ _, ?_, ?_⟩
  · -- what comes later was not there
    apply List.nodup_append.2
    refine ⟨hnodup, hnodup', ?_⟩
    rintro b hb b' hb' rfl
    exact ((hmem' b).1 hb').1 (List.mem_append_right _ hb)
  · intro b
    rw [List.mem_append, hmem', hmem, List.mem_append, List.mem_append, hmem]
    tauto

/-- What is gained are bindings of the queue. -/
theorem filter_ne (h : Gains queue bs l l') :
    l'.filter (fun b => b.queue ≠ queue) = l.filter fun b => b.queue ≠ queue := by
  obtain ⟨added, rfl, -, hmem⟩ := h
  have hnone : added.filter (fun b => decide (b.queue ≠ queue)) = [] := by
    apply List.filter_eq_nil_iff.2
    intro b hb
    simp [((hmem b).1 hb).2.1]
  rw [List.filter_append, hnone, List.append_nil]

end Gains

namespace Hub

variable {h h' : Hub} {c : Nat} {queue : String}

/-- A queue that is there is bound to an exchange that is there. -/
theorem bind_gains {b : QueueBinding} (hq : h.queues.contains queue = true)
    (hx : h.exchanges.contains b.exchange = true) :
    ∃ bindings, h.bind queue b = ({ h with bindings }, .ok ()) ∧
      Gains queue [b] h.bindings bindings := by
  have heq : ∀ b' : Binding, b' = ⟨queue, b.exchange, b.routingKey⟩ ↔
      b'.queue = queue ∧ (⟨b'.routingKey, b'.exchange⟩ : QueueBinding) ∈ [b] := by
    rintro ⟨queue', exchange, key⟩
    rcases b with ⟨key', exchange'⟩
    simp [and_comm]
  simp only [bind, hq, hx, Bool.not_true, Bool.false_eq_true, if_false]
  split
  case isTrue hc =>
    refine ⟨h.bindings, rfl, [], (List.append_nil _).symm, List.nodup_nil, ?_⟩
    intro b'
    rw [← heq]
    constructor
    · intro hmem
      cases hmem
    · rintro ⟨hnot, rfl⟩
      exact absurd (List.contains_iff_mem.1 hc) hnot
  case isFalse hc =>
    refine ⟨_, rfl, [⟨queue, b.exchange, b.routingKey⟩], rfl, by simp, ?_⟩
    intro b'
    rw [← heq, List.mem_singleton]
    constructor
    · rintro rfl
      exact ⟨fun hmem => hc (List.contains_iff_mem.2 hmem), rfl⟩
    · exact And.right

/-- Bindings to exchanges that are there are made one after the other. -/
theorem bindAll_append (hf : h.fault? c = none) (hq : h.queues.contains queue = true)
    {made : List QueueBinding}
    (hx : ∀ b ∈ made, h.exchanges.contains b.exchange = true) (rest : List QueueBinding) :
    ∃ bindings, Gains queue made h.bindings bindings ∧
      bindAll h c queue (made ++ rest) = bindAll { h with bindings } c queue rest := by
  induction made generalizing h with
  | nil => exact ⟨h.bindings, .nil queue h.bindings, rfl⟩
  | cons b made ih =>
    obtain ⟨bindings, hbind, hgains⟩ := bind_gains hq (hx b List.mem_cons_self)
    obtain ⟨bindings', hgains', hrest⟩ := ih (h := { h with bindings }) hf hq
      fun b' hb' => hx b' (List.mem_cons_of_mem b hb')
    have hserve : Channels.bindQueue h c queue b = h.bind queue b := serve_of_up hf _
    refine ⟨bindings', hgains.trans hgains', ?_⟩
    rw [List.cons_append, bindAll, hserve, hbind]
    exact hrest

/-- A binding to an exchange that is missing is refused. -/
theorem bindAll_of_missing (hf : h.fault? c = none) (hq : h.queues.contains queue = true)
    {b : QueueBinding} (hx : h.exchanges.contains b.exchange = false)
    (rest : List QueueBinding) :
    bindAll h c queue (b :: rest) = (h, .ok (.refused b (notFound "exchange" b.exchange))) := by
  have hserve : Channels.bindQueue h c queue b = (h, .error (notFound "exchange" b.exchange)) := by
    have hbind : h.bind queue b = (h, .error (notFound "exchange" b.exchange)) := by
      simp [bind, hq, hx]
    exact (serve_of_up hf _).trans hbind
  rw [bindAll, hserve]
  rfl

/-! ## What is left alone -/

/-- Nothing has changed at a broker but a queue and its bindings. -/
structure SameBut (name : String) (h h' : Hub) : Prop where
  queues : ∀ other, other ≠ name → h'.queues.get? other = h.queues.get? other
  bindings : h'.bindings.filter (fun b => b.queue ≠ name) =
    h.bindings.filter fun b => b.queue ≠ name
  rest : h' = { h with queues := h'.queues, bindings := h'.bindings }

theorem SameBut.removeQueue {name : String} (hs : SameBut name h h') :
    SameBut name h (h'.removeQueue name) where
  queues other hne := by
    rw [Hub.removeQueue, Table.get?_erase, if_neg hne]
    exact hs.queues other hne
  bindings := by
    rw [Hub.removeQueue, List.filter_filter, ← hs.bindings]
    simp
  rest := by
    rw [Hub.removeQueue, hs.rest]

/-- A broker once a queue has been declared there and has got some bindings. -/
def withQueue (h : Hub) (q : QueueOptions) (bindings : List Binding) : Hub :=
  { h.declareQueue q with bindings }

/-- A queue that is declared is as it was, or is new. -/
theorem get?_withQueue (h : Hub) (q : QueueOptions) (bindings : List Binding) :
    (h.withQueue q bindings).queues.get? q.name = some ((h.queues.get? q.name).getD
      { durable := q.durable, exclusive := q.exclusive }) := by
  have hget : (h.withQueue q bindings).queues.get? q.name = (h.queues.get? q.name).or
      (if q.name = q.name then some { durable := q.durable, exclusive := q.exclusive } else none) :=
    get?_insertNew _ _ _ _
  rw [hget, if_pos rfl]
  cases h.queues.get? q.name <;> rfl

theorem sameBut_withQueue {q : QueueOptions} {made : List QueueBinding} {bindings : List Binding}
    (hg : Gains q.name made h.bindings bindings) : SameBut q.name h (h.withQueue q bindings) where
  queues other hne := by
    have hget : (h.withQueue q bindings).queues.get? other = (h.queues.get? other).or
        (if other = q.name then some { durable := q.durable, exclusive := q.exclusive }
          else none) := get?_insertNew _ _ _ _
    rw [hget, if_neg hne, Option.or_none]
  bindings := hg.filter_ne
  rest := rfl

/-! ## Withdrawing a queue -/

/-- Whether a queue has neither a message nor a consumer. One that is not there has none. -/
def Unused (h : Hub) (name : String) : Prop :=
  ∀ q, h.queues.get? name = some q → q.messages = [] ∧ h.consumed q = false

/-- A queue that has been declared is used if it was before. -/
theorem unused_withQueue_iff (h : Hub) (q : QueueOptions) (bindings : List Binding) :
    (h.withQueue q bindings).Unused q.name ↔ h.Unused q.name := by
  rw [Unused, get?_withQueue, Unused]
  cases hq : h.queues.get? q.name with
  | none => exact ⟨fun _ => nofun, fun _ q' hq' => by cases hq'; exact ⟨rfl, rfl⟩⟩
  | some q₀ => exact Iff.rfl

theorem deleteQueue_of_unused {name : String} (hq : h.queues.contains name = true)
    (hu : h.Unused name) : h.deleteQueue name true true = (h.removeQueue name, .ok ()) := by
  obtain ⟨q, hq⟩ := Option.isSome_iff_exists.1 hq
  obtain ⟨hmessages, hconsumed⟩ := hu q hq
  simp [deleteQueue, hq, hmessages, hconsumed]

/-- A queue that is used is not deleted. -/
theorem deleteQueue_of_used {name : String} (hu : ¬ h.Unused name) :
    ∃ text, h.deleteQueue name true true = (h, .error (.application text)) := by
  rw [Unused, not_forall] at hu
  obtain ⟨q, hu⟩ := hu
  rw [Classical.not_imp] at hu
  obtain ⟨hq, hused⟩ := hu
  rw [deleteQueue, hq]
  cases hc : h.consumed q with
  | true =>
    simp only [hc, Bool.and_self, if_true]
    exact ⟨_, rfl⟩
  | false =>
    have hmessages : q.messages.isEmpty = false := by
      rw [List.isEmpty_eq_false_iff]
      exact fun hm => hused ⟨hm, hc⟩
    simp only [hc, hmessages]
    exact ⟨_, rfl⟩

/-! ## Requests -/

/-- The request of a declaration comes to the bindings whose exchanges are there, and goes on with
the others. -/
theorem request_declareQueue_append (hf : h.fault? c = none) (q : QueueOptions)
    {made : List QueueBinding} (hx : ∀ b ∈ made, h.exchanges.contains b.exchange = true)
    (rest : List QueueBinding) : ∃ bindings, Gains q.name made h.bindings bindings ∧
      request h c (.declareQueue q (made ++ rest)) =
        bindAll (h.withQueue q bindings) c q.name rest := by
  have hq : (h.declareQueue q).queues.contains q.name = true := by
    rw [Table.contains]
    have hget := get?_withQueue h q h.bindings
    exact Option.isSome_iff_exists.2 ⟨_, hget⟩
  have hreq : request h c (.declareQueue q (made ++ rest)) =
      bindAll (h.declareQueue q) c q.name (made ++ rest) := by
    simp only [request, Channels.declareQueue, serve_of_up hf]
  obtain ⟨bindings, hgains, hbind⟩ := bindAll_append (h := h.declareQueue q) hf hq hx rest
  exact ⟨bindings, hgains, hreq.trans hbind⟩

/-- Where all exchanges are there, a queue is declared with all its bindings. -/
theorem request_declareQueue_of_all (hf : h.fault? c = none) (q : QueueOptions)
    {bs : List QueueBinding} (hx : ∀ b ∈ bs, h.exchanges.contains b.exchange = true) :
    ∃ bindings, Gains q.name bs h.bindings bindings ∧
      request h c (.declareQueue q bs) = (h.withQueue q bindings, .ok .done) := by
  obtain ⟨bindings, hgains, hreq⟩ := request_declareQueue_append hf q hx []
  rw [List.append_nil] at hreq
  exact ⟨bindings, hgains, hreq⟩

/-- The first binding whose exchange is missing is refused. -/
theorem request_declareQueue_of_missing (hf : h.fault? c = none) (q : QueueOptions)
    {made : List QueueBinding} {b : QueueBinding}
    (hx : ∀ b ∈ made, h.exchanges.contains b.exchange = true)
    (hb : h.exchanges.contains b.exchange = false) (rest : List QueueBinding) :
    ∃ bindings, Gains q.name made h.bindings bindings ∧
      request h c (.declareQueue q (made ++ b :: rest)) =
        (h.withQueue q bindings, .ok (.refused b (notFound "exchange" b.exchange))) := by
  obtain ⟨bindings, hgains, hreq⟩ := request_declareQueue_append hf q hx (b :: rest)
  have hq : (h.withQueue q bindings).queues.contains q.name = true :=
    Option.isSome_iff_exists.2 ⟨_, get?_withQueue h q bindings⟩
  have hrefused := bindAll_of_missing (h := h.withQueue q bindings) hf hq hb rest
  exact ⟨bindings, hgains, hreq.trans hrefused⟩

end Hub

/-! ## What a declaration comes to -/

section Declaration

variable {t : Topology} {q : QueueOptions} {bs : List QueueBinding} {w w₁ : HubWorld}

/-- A queue has been declared with its bindings. -/
structure Declared (t : Topology) (q : QueueOptions) (bs : List QueueBinding)
    (w w' : HubWorld) : Prop where
  queue : w'.site.store.queues.get? q.name = some ((w.site.store.queues.get? q.name).getD
    { durable := q.durable, exclusive := q.exclusive })
  gains : Gains q.name bs w.site.store.bindings w'.site.store.bindings
  others : Hub.SameBut q.name w.site.store w'.site.store
  records : w'.site.records = w.site.records.modify t.record (·.remember (.queue q bs))

/-- A queue has been withdrawn, or was in use and has been kept, after some of its bindings were
made. -/
structure Withdrawn (q : QueueOptions) (made : List QueueBinding) (w w' : HubWorld) : Prop where
  gone : w.site.store.Unused q.name → w'.site.store.queues.get? q.name = none ∧
    ∀ b ∈ w'.site.store.bindings, b.queue ≠ q.name
  kept : ¬ w.site.store.Unused q.name →
    w'.site.store.queues.get? q.name = w.site.store.queues.get? q.name ∧
      Gains q.name made w.site.store.bindings w'.site.store.bindings
  others : Hub.SameBut q.name w.site.store w'.site.store
  records : w'.site.records = w.site.records

/-- The refusal of a binding to an exchange that is missing. -/
def missingExchange (q : QueueOptions) (b : QueueBinding) : MessagingError Fault :=
  .queueBind q.name b.exchange b.routingKey (Hub.notFound "exchange" b.exchange)

/-- How the declaration of a queue ends. -/
inductive Concludes (t : Topology) (q : QueueOptions) (bs : List QueueBinding) (w w' : HubWorld) :
    Except (MessagingError Fault) Unit → Prop
  | declared (hall : ∀ b ∈ bs, w.site.store.exchanges.contains b.exchange = true)
      (h : Declared t q bs w w') : Concludes t q bs w w' (.ok ())
  | refused {made rest : List QueueBinding} {b : QueueBinding} (hbs : bs = made ++ b :: rest)
      (hmade : ∀ b' ∈ made, w.site.store.exchanges.contains b'.exchange = true)
      (hmissing : w.site.store.exchanges.contains b.exchange = false)
      (h : Withdrawn q made w w') : Concludes t q bs w w' (.error (missingExchange q b))

/-- A change of the world that leaves alone all that a declaration looks at; time may pass. -/
structure Aloof (f : HubWorld → HubWorld) : Prop where
  site : ∀ w, (f w).site = w.site
  supervisor : ∀ w, (f w).supervisor = w.supervisor
  attached : ∀ w, (f w).attached = w.attached
  canceled : ∀ w, (f w).canceled = w.canceled

/-- How far the declaration of a queue has come: how many steps it is from its end at most. -/
inductive DeclarationStage (t : Topology) (q : QueueOptions) (bs : List QueueBinding)
    (w : HubWorld) :
    HubWorld → Arrangement Nat → Nat → Prop
  | ready {w₁ : HubWorld} (hs : w₁.site = w.site) :
      DeclarationStage t q bs w w₁ ⟨t, [.declare (.queue q bs)], .ready⟩ 7
  | asking {w₁ : HubWorld} {e : Execution Nat} {k : Nat} (hs : w₁.site = w.site)
      (he : e.client = t.client.client) (hn : Nearing w₁.site.store e.phase k) :
      DeclarationStage t q bs w w₁ ⟨t, [], .asking (.declare (.queue q bs)) e⟩ (k + 3)
  | made {w₁ : HubWorld} (hall : ∀ b ∈ bs, w.site.store.exchanges.contains b.exchange = true)
      (h : Declared t q bs w w₁) : DeclarationStage t q bs w w₁ ⟨t, [], .ready⟩ 1
  | withdrawing {w₁ : HubWorld} {made rest : List QueueBinding} {b : QueueBinding}
      {bindings : List Binding} {e : Execution Nat} {k : Nat} (hbs : bs = made ++ b :: rest)
      (hmade : ∀ b' ∈ made, w.site.store.exchanges.contains b'.exchange = true)
      (hmissing : w.site.store.exchanges.contains b.exchange = false)
      (hgains : Gains q.name made w.site.store.bindings bindings)
      (hs : w₁.site = { w.site with store := w.site.store.withQueue q bindings })
      (he : e.client = t.client.client) (hn : Nearing w₁.site.store e.phase k) :
      DeclarationStage t q bs w w₁
        ⟨t, [], .withdrawing q.name b (Hub.notFound "exchange" b.exchange) e⟩ k

/-- What is left of a queue once it has been deleted, unless it was in use. -/
theorem withdrawn_of_deleted {made : List QueueBinding} {bindings : List Binding}
    (hg : Gains q.name made w.site.store.bindings bindings)
    (hu : w.site.store.Unused q.name)
    (hs : w₁.site =
      { w.site with store := (w.site.store.withQueue q bindings).removeQueue q.name }) :
    Withdrawn q made w w₁ where
  gone _ := by
    rw [hs]
    refine ⟨?_, ?_⟩
    · simp [Hub.removeQueue]
    · intro b hb
      simpa using (List.mem_filter.1 hb).2
  kept hused := absurd hu hused
  others := by
    rw [hs]
    exact (Hub.sameBut_withQueue hg).removeQueue
  records := by rw [hs]

theorem withdrawn_of_kept {made : List QueueBinding} {bindings : List Binding}
    (hg : Gains q.name made w.site.store.bindings bindings)
    (hused : ¬ w.site.store.Unused q.name)
    (hs : w₁.site = { w.site with store := w.site.store.withQueue q bindings }) :
    Withdrawn q made w w₁ where
  gone hu := absurd hu hused
  kept _ := by
    rw [hs]
    refine ⟨?_, hg⟩
    rw [Hub.get?_withQueue]
    cases hq : w.site.store.queues.get? q.name with
    | none =>
      -- a queue that is not there is unused
      refine absurd ?_ hused
      intro q' hq'
      rw [hq] at hq'
      cases hq'
    | some q₀ => rfl
  others := by
    rw [hs]
    exact Hub.sameBut_withQueue hg
  records := by rw [hs]

/-- An execution of a request comes a step nearer to its end, or the request is answered. -/
theorem Serving.step_answered (h : Serving t w) (opens : Bool) {e : Execution Nat} {k : Nat}
    (r : Request) (he : e.client = t.client.client)
    (hn : Nearing w.site.store e.phase (k + 1)) :
    (∃ e', e.step (asking r) w opens = (w, .moves e') ∧ e'.client = t.client.client ∧
        Nearing w.site.store e'.phase k) ∨
      ∃ c, w.site.store.fault? c = none ∧
        (∀ h' reply, request w.site.store c r = (h', .ok reply) →
          ∃ n, e.step (asking r) w opens = (withStore w h', .ends ⟨n, .ok reply⟩)) ∧
        ∀ h' text, request w.site.store c r = (h', .error (.application text)) →
          ∃ n, e.step (asking r) w opens =
            (withStore w h', .ends ⟨n, .error (.operation (.application text))⟩) := by
  rcases h.step_nearing opens r he hn with hmoves | ⟨-, c, hp, hup, hcan⟩
  · exact .inl hmoves
  refine .inr ⟨c, hup, ?_, ?_⟩
  · intro h' reply hr
    exact ⟨e.attempts, by simp [Execution.step, hp, hcan, asking, Operation.atOnce, hr,
      Execution.finish]⟩
  · intro h' text hr
    exact ⟨e.attempts, by simp [Execution.step, hp, hcan, asking, Operation.atOnce, hr,
      Execution.finish, Fault.isNetwork]⟩

/-- What is known of the declaration of a queue after some steps. -/
def DeclarationUnderway (t : Topology) (q : QueueOptions) (bs : List QueueBinding) (w : HubWorld)
    (works : Nat) (y : Stint) : Prop :=
  match y.call with
  | .inl a => Serving t y.world ∧ ∃ k, DeclarationStage t q bs w y.world a k ∧ k + works ≤ 7
  | .inr res => Concludes t q bs w y.world res

variable {a : Arrangement Nat} {k works : Nat}

/-- Where only the site counts, what else happens in the world does not. -/
theorem Declared.of_site {w₂ : HubWorld} (h : Declared t q bs w w₁) (hs : w₂.site = w₁.site) :
    Declared t q bs w w₂ := by
  obtain ⟨hqueue, hgains, hothers, hrecords⟩ := h
  rw [← hs] at hqueue hgains hothers hrecords
  exact ⟨hqueue, hgains, hothers, hrecords⟩

theorem Withdrawn.of_site {w₂ : HubWorld} {made : List QueueBinding} (h : Withdrawn q made w w₁)
    (hs : w₂.site = w₁.site) : Withdrawn q made w w₂ := by
  obtain ⟨hgone, hkept, hothers, hrecords⟩ := h
  rw [← hs] at hgone hkept hothers hrecords
  exact ⟨hgone, hkept, hothers, hrecords⟩

theorem Concludes.of_site {w₂ : HubWorld} {res : Except (MessagingError Fault) Unit}
    (h : Concludes t q bs w w₁ res) (hs : w₂.site = w₁.site) : Concludes t q bs w w₂ res := by
  cases h with
  | declared hall h => exact .declared hall (h.of_site hs)
  | refused hbs hmade hmissing h => exact .refused hbs hmade hmissing (h.of_site hs)

theorem DeclarationStage.of_site {w₂ : HubWorld} (h : DeclarationStage t q bs w w₁ a k)
    (hs : w₂.site = w₁.site) :
    DeclarationStage t q bs w w₂ a k := by
  cases h with
  | ready hs₁ => exact .ready (hs.trans hs₁)
  | asking hs₁ he hn => exact .asking (hs.trans hs₁) he (hn.congr (by rw [hs]))
  | made hall h => exact .made hall (h.of_site hs)
  | withdrawing hbs hmade hmissing hgains hs₁ he hn =>
    exact .withdrawing hbs hmade hmissing hgains (hs.trans hs₁) he (hn.congr (by rw [hs]))

/-- The broker has answered: the queue is declared, or a binding is refused. -/
theorem declarationUnderway_answered (hw : Serving t w₁) (hs : w₁.site = w.site)
    {e : Execution Nat} {c : Nat} (opens : Bool) (hf : w.site.store.fault? c = none)
    (hstep : ∀ h' reply, request w.site.store c (.declareQueue q bs) = (h', .ok reply) →
      ∃ n, e.step (asking (.declareQueue q bs)) w₁ opens = (withStore w₁ h', .ends ⟨n, .ok reply⟩))
    (hk : works + 4 ≤ 7) :
    DeclarationUnderway t q bs w (works + 1)
      (Stint.step ⟨w₁, .inl ⟨t, [], .asking (.declare (.queue q bs)) e⟩⟩ (.work opens)) := by
  have hup := hw.up
  rw [hs] at hup
  have hclosed : w.site.store.closedChannels = w₁.site.store.closedChannels := by rw [hs]
  cases hfind : bs.find? fun b => !w.site.store.exchanges.contains b.exchange with
  | none =>
    have hall : ∀ b ∈ bs, w.site.store.exchanges.contains b.exchange = true := by
      intro b hb
      simpa using List.find?_eq_none.1 hfind b hb
    obtain ⟨bindings, hgains, hreq⟩ := Hub.request_declareQueue_of_all hf q hall
    obtain ⟨n, hstep⟩ := hstep _ _ hreq
    simp only [Stint.step, Arrangement.step, TopologyStep.request, Broker.Declaration.request,
      hstep]
    refine ⟨hw.congr rfl rfl rfl hclosed hup, 1, .made hall ⟨?_, hgains, ?_, ?_⟩, by omega⟩
    · exact Hub.get?_withQueue w.site.store q bindings
    · exact Hub.sameBut_withQueue hgains
    · rw [← hs]
      rfl
  | some b =>
    obtain ⟨hmissing, made, rest, rfl, hmade⟩ := List.find?_eq_some_iff_append.1 hfind
    have hmissing : w.site.store.exchanges.contains b.exchange = false := by simpa using hmissing
    have hmade : ∀ b' ∈ made, w.site.store.exchanges.contains b'.exchange = true := by
      intro b' hb'
      simpa using hmade b' hb'
    obtain ⟨bindings, hgains, hreq⟩ :=
      Hub.request_declareQueue_of_missing hf q hmade hmissing rest
    obtain ⟨n, hstep⟩ := hstep _ _ hreq
    simp only [Stint.step, Arrangement.step, TopologyStep.request, Broker.Declaration.request,
      hstep]
    refine ⟨hw.congr rfl rfl rfl hclosed hup, 3,
      .withdrawing rfl hmade hmissing hgains ?_ rfl (.entering _), by omega⟩
    rw [← hs]
    rfl

/-- One step of the declaration of a queue. -/
theorem DeclarationStage.step (h : DeclarationStage t q bs w w₁ a k) (hw : Serving t w₁)
    (opens : Bool) (hk : k + works ≤ 7) :
    DeclarationUnderway t q bs w (works + 1) (Stint.step ⟨w₁, .inl a⟩ (.work opens)) := by
  cases h with
  | ready hs => exact ⟨hw, 6, .asking hs rfl (.entering _), by omega⟩
  | @asking e k hs he hn =>
    obtain ⟨k, rfl⟩ := hn.exists_succ
    rcases hw.step_answered opens (.declareQueue q bs) he hn with
      ⟨e', hstep, he', hn'⟩ | ⟨c, hf, hanswer, -⟩
    · simp only [Stint.step, Arrangement.step, TopologyStep.request, Broker.Declaration.request,
        hstep]
      exact ⟨hw, k + 3, .asking hs he' hn', by omega⟩
    · rw [hs] at hf hanswer
      exact declarationUnderway_answered hw hs opens hf hanswer (by omega)
  | made hall h => exact .declared hall h
  | @withdrawing made rest b bindings e k hbs hmade hmissing hgains hs he hn =>
    obtain ⟨k, rfl⟩ := hn.exists_succ
    rcases hw.step_answered opens (.deleteQueue q.name true true) he hn with
      ⟨e', hstep, he', hn'⟩ | ⟨c, hf, hanswer, hrefusal⟩
    · simp only [Stint.step, Arrangement.step, hstep]
      exact ⟨hw, k, .withdrawing hbs hmade hmissing hgains hs he' hn', by omega⟩
    -- whatever comes of the deletion, the refusal is the error
    have hdelete : ∀ r, w₁.site.store.deleteQueue q.name true true = r →
        request w₁.site.store c (.deleteQueue q.name true true) =
          (r.1, r.2.map fun _ => .done) := by
      rintro r rfl
      simp only [request, Channels.deleteQueue, Hub.serve_of_up hf]
    rw [hs] at hdelete hanswer hrefusal
    have hq : (w.site.store.withQueue q bindings).queues.contains q.name = true :=
      Option.isSome_iff_exists.2 ⟨_, Hub.get?_withQueue w.site.store q bindings⟩
    by_cases hu : w.site.store.Unused q.name
    · have hu' := (Hub.unused_withQueue_iff w.site.store q bindings).2 hu
      obtain ⟨n, hstep⟩ := hanswer _ _ (hdelete _ (Hub.deleteQueue_of_unused hq hu'))
      simp only [Stint.step, Arrangement.step, hstep]
      refine .refused hbs hmade hmissing (withdrawn_of_deleted hgains hu ?_)
      rw [withStore, hs]
    · have hused := fun hu' => hu ((Hub.unused_withQueue_iff w.site.store q bindings).1 hu')
      obtain ⟨text, hrefused⟩ := Hub.deleteQueue_of_used hused
      obtain ⟨n, hstep⟩ := hrefusal _ text (hdelete _ hrefused)
      simp only [Stint.step, Arrangement.step, hstep]
      refine .refused hbs hmade hmissing (withdrawn_of_kept hgains hu ?_)
      rw [withStore, hs]

theorem Aloof.peaceful {f : HubWorld → HubWorld} (hf : Aloof f) : Peaceful f where
  supervisor := hf.supervisor
  attached := hf.attached
  canceled := hf.canceled
  closedChannels w := by rw [hf.site]
  up w hw := by rwa [hf.site]

/-- The declaration of a queue comes to its end, if nothing else happens but that time passes. -/
theorem declarationUnderway_run (hw : Serving t w) (q : QueueOptions) (bs : List QueueBinding)
    {moves : List Stint.Move} (hm : ∀ f, .drift f ∈ moves → Aloof f) :
    DeclarationUnderway t q bs w (Stint.works moves)
      (Stint.run w ⟨t, [.declare (.queue q bs)], .ready⟩ moves) := by
  induction moves using List.reverseRecOn with
  | nil => exact ⟨hw, 7, .ready rfl, Nat.le_refl 7⟩
  | append_singleton front m ih =>
    have hfront := ih fun f hf => hm f (List.mem_append_left _ hf)
    rw [works_append, Stint.run, List.foldl_append, ← Stint.run]
    generalize Stint.run w ⟨t, [.declare (.queue q bs)], .ready⟩ front = y at hfront
    obtain ⟨w₁, a | res⟩ := y
    · obtain ⟨hserving, k, hstage, hk⟩ := hfront
      cases m with
      | work opens => exact hstage.step hserving opens hk
      | drift f =>
        have hf := hm f (List.mem_append_right _ List.mem_cons_self)
        exact ⟨hserving.drift hf.peaceful, k, hstage.of_site (hf.site w₁), hk⟩
    · cases m with
      | work opens => exact hfront
      | drift f =>
        have hf := hm f (List.mem_append_right _ List.mem_cons_self)
        exact hfront.of_site (hf.site w₁)

/-- A queue that is declared while the network is up and no one else acts: whatever its state, after
at most seven steps the declaration has ended. It has succeeded exactly if all exchanges are there
that the queue is to be bound to. -/
theorem declareQueue_run (hw : Serving t w) (q : QueueOptions) (bs : List QueueBinding)
    {moves : List Stint.Move} (hm : ∀ f, .drift f ∈ moves → Aloof f)
    (hworks : 7 ≤ Stint.works moves) :
    ∃ w' res, Stint.run w ⟨t, [.declare (.queue q bs)], .ready⟩ moves = ⟨w', .inr res⟩ ∧
      (res = .ok () ↔ ∀ b ∈ bs, w.site.store.exchanges.contains b.exchange = true) ∧
      Concludes t q bs w w' res := by
  have hrun := declarationUnderway_run hw q bs hm
  generalize Stint.run w ⟨t, [.declare (.queue q bs)], .ready⟩ moves = y at hrun
  obtain ⟨w', a | res⟩ := y
  · obtain ⟨-, k, hstage, hk⟩ := hrun
    have hpos : 0 < k := by
      cases hstage with
      | ready => omega
      | asking => omega
      | made => omega
      | withdrawing hbs hmade hmissing hgains hs he hn =>
        obtain ⟨k, rfl⟩ := hn.exists_succ
        omega
    omega
  · refine ⟨w', res, rfl, ?_, hrun⟩
    cases hrun with
    | declared hall => exact ⟨fun _ => hall, fun _ => rfl⟩
    | @refused made rest b hbs hmade hmissing h =>
      constructor
      · exact nofun
      · intro hall
        have hb : b ∈ bs := by simp [hbs]
        rw [hall b hb] at hmissing
        cases hmissing

/-- A broker with an exchange, a queue that is bound to it and idle, and another queue. -/
def idleWorld : HubWorld :=
  let queue : Queue := { durable := true, exclusive := false }
  let store : Hub := {
    channels := 1
    exchanges := .ofList [("x", ⟨.direct, true⟩)]
    queues := .ofList [("q", queue), ("other", queue)]
    bindings := [⟨"q", "x", "old"⟩, ⟨"other", "x", "k"⟩] }
  { freshWorld with site := { freshWorld.site with store } }

/-- The queue is declared again with a binding to an exchange that is missing: it is withdrawn with
the binding that it had before. -/
theorem withdrawn_with_old_binding :
    let q : QueueOptions := ⟨"q", true, false, false⟩
    let bs : List QueueBinding := [⟨"k", "x"⟩, ⟨"k", "gone"⟩, ⟨"m", "x"⟩]
    let w := idleWorld
    let moves := List.replicate 7 (Stint.Move.work false)
    ∃ w' res, Stint.run w ⟨freshTopology, [.declare (.queue q bs)], .ready⟩ moves = ⟨w', .inr res⟩ ∧
      res ≠ .ok () ∧ Concludes freshTopology q bs w w' res ∧
      w'.site.store.bindings = [⟨"other", "x", "k"⟩] := by
  intro q bs w moves
  have hw : Serving freshTopology w := ⟨rfl, ⟨1, rfl, rfl⟩, rfl, rfl⟩
  have hm : ∀ f, .drift f ∈ moves → Aloof f := by
    intro f hf
    exact absurd (List.eq_of_mem_replicate hf) nofun
  obtain ⟨w', res, hrun, hiff, hconcludes⟩ := declareQueue_run hw q bs hm (by decide)
  refine ⟨w', res, hrun, ?_, hconcludes, ?_⟩
  · intro hok
    exact absurd (hiff.1 hok) (by decide +kernel)
  · rw [show w' = (Stint.mk w' (.inr res)).world from rfl, ← hrun]
    decide +kernel

end Declaration

end Reconnect.Rehearsal
