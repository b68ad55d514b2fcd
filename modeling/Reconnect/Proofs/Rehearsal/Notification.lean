import Reconnect.Proofs.Broker.Endurance
import Reconnect.Proofs.Rehearsal.Bureau
import Reconnect.Proofs.Rehearsal.Publishing

/-!
# Notifications

A courier brings one notification to a broker at which publishers and subscribers work. Whatever
happens between its steps, a notification that succeeds has brought one copy of its message to the
queue of every subscriber whose subscription stands, and none to a queue for another topic; one that
does not succeed has changed nothing (`notified_run`). One to whose topic nobody listens when it is
answered ends as unroutable.

A subscription that succeeds while a call is about to withdraw its queue may lose the queue
afterwards, though nobody has unsubscribed: `notified_without_queue`.
-/

namespace Reconnect.Rehearsal

open Broker
open scoped List

/-! ## Queues without consumers -/

namespace Hub

variable {h : Hub} {queue : String} {q : Queue}

theorem waiting_enqueue (hq : h.queues.get? queue = some q) (hc : h.consumed q = false)
    (m : Message) : (h.enqueue queue m).waiting queue = q.messages ++ [m] := by
  let queues := h.queues.modify queue fun q => { q with messages := q.messages ++ [m] }
  have hq' : queues.get? queue = some { q with messages := q.messages ++ [m] } := by
    rw [Table.get?_modify, if_pos rfl, hq]
    rfl
  have hidle : q.feeds.filter h.isLive = [] := by
    rw [List.filter_eq_nil_iff]
    exact List.any_eq_false.1 hc
  obtain ⟨q'', hget, hmessages, -⟩ := dispatch_unfed (h := { h with queues }) hq' hidle
  have hget : (h.enqueue queue m).queues.get? queue = some q'' := hget
  rw [waiting, hget]
  exact hmessages

/-- A message that is enqueued in some queues comes last in each of them that has no consumer. -/
theorem waiting_foldl {targets : List String} (hn : targets.Nodup) (ht : queue ∈ targets)
    (hq : h.queues.get? queue = some q) (hc : h.consumed q = false) (m : Message) :
    (targets.foldl (·.enqueue · m) h).waiting queue = q.messages ++ [m] := by
  induction targets generalizing h with
  | nil => cases ht
  | cons name rest ih =>
    rw [List.nodup_cons] at hn
    rw [List.foldl_cons]
    -- each queue is listed once: the other ones take nothing from this one
    by_cases he : queue = name
    · subst he
      have hrest := ((receives_foldl (h.enqueue queue m) m hn.2).spared queue hn.1).1
      rw [waiting, hrest]
      exact waiting_enqueue hq hc m
    · have hfirst := receives_enqueue h name m
      have hsame := (hfirst.spared queue (by simpa using he)).1
      refine ih hn.2 ((List.mem_cons.1 ht).resolve_left he) (hsame.trans hq) ?_
      rw [consumed_eq_false_iff] at hc ⊢
      intro f hf
      rw [← hc f hf, Bool.eq_iff_iff, Table.contains, Table.contains, ← Table.mem_keys_iff,
        ← Table.mem_keys_iff, hfirst.streams]

end Hub

/-! ## What a notification does at the broker -/

/-- A topic takes itself, whatever the kind of its exchange. -/
theorem takes_self (kind : ExchangeKind) (topic : String) : Hub.takes kind topic topic = true := by
  cases kind with
  | direct => exact beq_self_eq_true topic
  | fanout => rfl
  | topic => exact topicMatches_self topic

/-- Whether a message has been brought to the queue of every subscriber whose subscription to a
topic stands, once, and to no queue in which a subscriber takes another topic. -/
structure Spreads (topic : String) (m : Message) (b : Bureau) (w : HubWorld) : Prop where
  copied : ∀ id, Bureau.Standing topic id b.log →
    b.world.site.store.Gets w.site.store m (topicQueueName topic id)
  /-- Where there is no consumer, the message waits behind the others. -/
  appended : ∀ id, Bureau.Standing topic id b.log → ∀ q,
    b.world.site.store.queues.get? (topicQueueName topic id) = some q →
    b.world.site.store.consumed q = false →
    w.site.store.waiting (topicQueueName topic id) = q.messages ++ [m]
  spared : ∀ other id, other ≠ topic →
    w.site.store.held (topicQueueName other id) =
      b.world.site.store.held (topicQueueName other id)

section Spreading

variable {b : Bureau} {topic : String}

/-- The queue of a subscriber whose subscription stands matches. -/
theorem Bureau.Sound.matches_of_standing (h : b.Sound) (hne : topic ≠ "") {id : Identifier}
    (hs : Bureau.Standing topic id b.log) :
    b.world.site.store.Matches topic topic (topicQueueName topic id) := by
  obtain ⟨ht, -⟩ := h.standing topic id hs
  obtain ⟨x, hx⟩ := Option.isSome_iff_exists.1 ht.exchange
  exact .bound (b := ⟨topicQueueName topic id, topic, topic⟩) hne hx ht.bound
    (takes_self x.kind topic)

/-- The queues for other topics do not match. -/
theorem Bureau.Sound.not_matches (h : b.Sound) (hne : topic ≠ "") {other : String}
    (ho : other ≠ topic) (id : Identifier) :
    ¬ b.world.site.store.Matches topic topic (topicQueueName other id) := by
  intro hm
  generalize hx : topic = exchange at hm
  generalize hq : topicQueueName other id = queue at hm
  cases hm with
  | named => exact hne hx
  | @bound x binding _ _ hb =>
    exact ho ((h.bindings binding hb other id hq.symm).symm.trans hx.symm)

/-- What a message that the broker publishes to a topic comes to. -/
theorem Bureau.Sound.spreads (h : b.Sound) (hne : topic ≠ "") {targets : List String}
    (hr : b.world.site.store.route topic topic = .ok targets) (m : Message) :
    Spreads topic m b
      (withStore b.world (targets.foldl (·.enqueue · m) b.world.site.store)) := by
  have hnodup := nodup_route hr
  have hreceives := receives_foldl b.world.site.store m hnodup
  have htarget : ∀ id, Bureau.Standing topic id b.log → topicQueueName topic id ∈ targets :=
    fun id hs => (Hub.mem_route hr).2 (h.matches_of_standing hne hs)
  refine ⟨fun id hs => ?_, fun id hs q hq hc => ?_, fun other id ho => ?_⟩
  · have hthere : b.world.site.store.queues.contains (topicQueueName topic id) = true := by
      have hq := (h.standing topic id hs).1.queue
      rwa [Hub.layout, Option.isSome_map] at hq
    exact hreceives.received _ (htarget id hs) hthere
  · exact Hub.waiting_foldl hnodup (htarget id hs) hq hc m
  · exact hreceives.held_eq fun hmem => h.not_matches hne ho id ((Hub.mem_route hr).1 hmem)

end Spreading

/-! ## Couriers -/

/-- A notification on its way, or its result, in a bureau, and the bureau before each of its steps
with the world after it. -/
structure Courier where
  bureau : Bureau
  call : Publication Nat ⊕ Except (MessagingError Fault) String
  steps : List (Bureau × HubWorld) := []

namespace Courier

/-- What can happen next. -/
inductive Move where
  /-- The notification takes a step. -/
  | work (opens : Bool)
  /-- Something else happens in the bureau. -/
  | other (m : Bureau.Move)

/-- One move. -/
def step (y : Courier) : Move → Courier
  | .work opens =>
    match y.call with
    | .inl p =>
      let r := p.step y.bureau.world opens
      { bureau := { y.bureau with world := r.1 }
        call := Posting.goOn r.2
        steps := y.steps ++ [(y.bureau, r.1)] }
    | .inr _ => y
  | .other m => { y with bureau := y.bureau.step m }

/-- The notification that a list of moves leads to. -/
def run (b : Bureau) (p : Publication Nat) (moves : List Move) : Courier :=
  moves.foldl step ⟨b, .inl p, []⟩

/-- How many steps the notification takes in a list of moves. -/
def works : List Move → Nat
  | [] => 0
  | .work _ :: rest => works rest + 1
  | .other _ :: rest => works rest

/-- Whether none of some steps has changed anything at the site. -/
def Idle (steps : List (Bureau × HubWorld)) : Prop := ∀ s ∈ steps, s.2.site = s.1.world.site

/-- A world in which there is the exchange of a topic, and nothing is bound to it. -/
structure Silent (topic : String) (w : HubWorld) : Prop where
  exchange : w.site.store.exchanges.contains topic = true
  unbound : ∀ b ∈ w.site.store.bindings, b.exchange ≠ topic

/-- Whether a call was given up without an answer of the broker. -/
def GivenUp (err : MessagingError Fault) : Prop :=
  err = .client .contextCanceled ∨ err = .client .clientDetached ∨
    err = .client .operationTimeout

/-- What the steps of a publication have done by the time it has come to a state or a result. -/
inductive Told (p : Publication Nat) (topic : String) :
    Publication Nat ⊕ Except (MessagingError Fault) String → List (Bureau × HubWorld) → Prop
  | unbegun : Told p topic (.inl p) []
  | underway {id : String} {e : Execution Nat} {steps : List (Bureau × HubWorld)}
      (hi : Idle steps) : Told p topic (.inl (p.sent id e)) steps
  | failed {err : MessagingError Fault} {steps : List (Bureau × HubWorld)} {b : Bureau}
      {w : HubWorld} (hi : Idle (steps ++ [(b, w)]))
      (hu : Silent topic b.world → err = .unroutable topic topic ∨ GivenUp err) :
      Told p topic (.inr (.error err)) (steps ++ [(b, w)])
  | told {id : String} {steps : List (Bureau × HubWorld)} {b : Bureau} {w : HubWorld}
      {m : Message} (hi : Idle steps) (hc : Posting.Carries p id m) (hs : Spreads topic m b w)
      (hu : ¬ Silent topic b.world) : Told p topic (.inr (.ok id)) (steps ++ [(b, w)])

/-! ## One step -/

section Steps

variable {p : Publication Nat} {id : String} {topic : String} {w w' : HubWorld} {opens : Bool}
  {e : Execution Nat} {steps : List (Bureau × HubWorld)} {b : Bureau}

theorem Idle.nil : Idle [] := fun _ h => absurd h List.not_mem_nil

theorem Idle.snoc (h : Idle steps) (hs : w.site = b.world.site) : Idle (steps ++ [(b, w)]) :=
  List.forall_mem_append.2 ⟨h, List.forall_mem_singleton.2 hs⟩

/-- A message that is not returned is put into each queue that the broker routes to. -/
theorem publishes_of_ok {h : Hub} {c : Nat} {exchange key : String} {body : Bytes}
    {headers : Headers} {reply : Broker.Reply Nat}
    (hr : (request h c (.publish exchange key body headers)).2 = .ok reply)
    (hn : reply ≠ .confirmed .returned) :
    ∃ targets, h.route exchange key = .ok targets ∧
      (request h c (.publish exchange key body headers)).1 =
        targets.foldl (·.enqueue · { body, headers }) h := by
  rcases h.fault?_cases c with hf | hf
  case inr =>
    simp only [request, Channels.publish, Hub.serve_of_fault hf] at hr
    cases hr
  simp only [request, Channels.publish, Hub.serve_of_up hf] at hr ⊢
  unfold Hub.publish at hr ⊢
  split at hr
  case h_1 => cases hr
  case h_2 =>
    cases hr
    exact absurd rfl hn
  case h_3 targets _ hroute => exact ⟨targets, hroute, rfl⟩

theorem Silent.route (h : Silent topic w) (hne : topic ≠ "") (key : String) :
    w.site.store.route topic key = .ok [] := by
  obtain ⟨x, hx⟩ := Option.isSome_iff_exists.1 h.exchange
  have hnone : (w.site.store.bindings.filter fun b =>
      b.exchange == topic && Hub.takes x.kind b.routingKey key) = [] := by
    rw [List.filter_eq_nil_iff]
    intro b hb
    simp [h.unbound b hb]
  rw [Hub.route, if_neg hne, hx]
  simp only [hnone]
  rfl

/-- A message to a topic to which nobody listens is returned, if the broker can be reached. -/
theorem Silent.returned (h : Silent topic w) (hne : topic ≠ "") (hx : p.exchange = topic)
    {c : Nat} (hup : w.site.store.fault? c = none) :
    request w.site.store c (p.request id) = (w.site.store, .ok (.confirmed .returned)) := by
  simp only [Publication.request, request, Channels.publish, Hub.serve_of_up hup, Hub.publish, hx,
    h.route hne]
  rfl

/-- If nobody listens to its topic when a publication ends, it ends as unroutable, or it was given
up. -/
theorem Silent.verdict (h : Silent topic w) (hne : topic ≠ "") (hx : p.exchange = topic)
    (hk : p.key = topic) {o : Execution.Outcome (Broker.Reply Nat)}
    (he : e.Goes (asking (p.request id)) w opens w' (.ends o)) :
    ∃ err, p.verdict id o.result = .error err ∧
      (err = .unroutable topic topic ∨ GivenUp err) := by
  have hanswer : ∀ {x}, answer? w opens e (p.request id) = some x →
      x = .error .network ∨ x = .ok (.confirmed .returned) := by
    intro x hans
    obtain ⟨c, -, rfl⟩ := Option.map_eq_some_iff.1 hans
    rcases w.site.store.fault?_cases c with hf | hf
    · exact .inr (congrArg Prod.snd (h.returned hne hx hf))
    · left
      simp only [Publication.request, request, Channels.publish, Hub.serve_of_fault hf]
      rfl
  obtain ⟨n, a⟩ := o
  rcases answer?_of_goes he with ⟨rfl, -⟩ | rfl | rfl | ⟨f, rfl, hans, hf⟩ | ⟨reply, rfl, hans⟩
  · exact ⟨_, rfl, .inr (.inl rfl)⟩
  · exact ⟨_, rfl, .inr (.inr (.inl rfl))⟩
  · exact ⟨_, rfl, .inr (.inr (.inr rfl))⟩
  · rcases hanswer hans with hx' | hx' <;> cases hx'
    cases hf
  · rcases hanswer hans with hx' | hx' <;> cases hx'
    exact ⟨_, rfl, .inl (by rw [hx, hk])⟩

/-- A publication that ends well has published its message with its last step. -/
theorem published_of_goes {id' : String} {o : Execution.Outcome (Broker.Reply Nat)}
    (h : e.Goes (asking (p.request id)) w opens w' (.ends o))
    (hv : p.verdict id o.result = .ok id') :
    id' = id ∧ ∃ targets, w.site.store.route p.exchange p.key = .ok targets ∧
      w' = withStore w (targets.foldl
        (·.enqueue · { body := p.body, headers := p.headers.insert messageIdHeader id })
        w.site.store) := by
  generalize hx : (Step.ends o : Step (Execution Nat) (Execution.Outcome (Broker.Reply Nat))) = x
    at h
  cases h.atOnce with
  | idle hs =>
    obtain ⟨n, err | reply⟩ := o
    · cases hv
    · exact absurd hx.symm (hs n reply)
  | @succeed c reply w' hp hr =>
    obtain rfl := Step.ends.inj hx
    obtain ⟨rfl, hreply⟩ := Prod.mk.inj hr
    have hreturned : reply ≠ .confirmed .returned := by
      rintro rfl
      cases hv
    obtain ⟨targets, hroute, hstore⟩ := publishes_of_ok hreply hreturned
    have hid : id' = id := by
      simp only [Publication.verdict] at hv
      split at hv <;> simp_all
    exact ⟨hid, targets, hroute, congrArg (withStore w) hstore⟩
  | retry => cases hx
  | refuse =>
    obtain rfl := Step.ends.inj hx
    cases hv

/-- One step of a publication to a topic. -/
theorem told_work (hb : b.Sound) (hne : topic ≠ "") (hx : p.exchange = topic) (hk : p.key = topic)
    (hs : p.sending = none) {q : Publication Nat} (h : Told p topic (.inl q) steps)
    (opens : Bool) :
    Told p topic (Posting.goOn (q.step b.world opens).2)
        (steps ++ [(b, (q.step b.world opens).1)]) ∧
      Bureau.Sound { b with world := (q.step b.world opens).1 } := by
  have hg := q.goes_step b.world opens
  generalize (q.step b.world opens).1 = w' at hg ⊢
  generalize (q.step b.world opens).2 = x at hg ⊢
  have hsound : w'.site = b.world.site → Bureau.Sound { b with world := w' } := fun hsite =>
    hb.of_layout (by rw [hsite]) (by rw [hsite]) (by rw [hsite])
  cases h with
  | unbegun =>
    cases hg with
    | named => exact ⟨.underway (Idle.nil.snoc rfl), hsound rfl⟩
    | names => exact ⟨.underway (Idle.nil.snoc rfl), hsound rfl⟩
    | waits hs' => simp [hs] at hs'
    | moves hs' => simp [hs] at hs'
    | ends hs' => simp [hs] at hs'
  | @underway id e _ hi =>
    cases hg with
    | named hs' => cases hs'
    | names hs' => cases hs'
    | waits hs' he =>
      cases hs'
      cases (Posting.effect_of_goes he).2 with
      | idle hsite => exact ⟨.underway (hi.snoc hsite), hsound hsite⟩
    | moves hs' he =>
      cases hs'
      cases (Posting.effect_of_goes he).2 with
      | idle hsite => exact ⟨.underway (hi.snoc hsite), hsound hsite⟩
    | @ends id' e' w' o hs' he =>
      -- the last step: whatever the verdict, nothing was published before it
      cases hs'
      have hgoOn : Posting.goOn (.ends ((p.sent id e).verdict id o.result)) =
          .inr (p.verdict id o.result) := rfl
      rw [hgoOn]
      cases hv : p.verdict id o.result with
      | error err =>
        have hsilent : Silent topic b.world → err = .unroutable topic topic ∨ GivenUp err := by
          intro hu
          obtain ⟨_, herr, hwhy⟩ := hu.verdict (p := p) hne hx hk he
          obtain rfl := Except.error.inj (hv.symm.trans herr)
          exact hwhy
        cases (Posting.effect_of_goes he).2 with
        | idle hsite => exact ⟨.failed (hi.snoc hsite) hsilent, hsound hsite⟩
        | published => cases hv
      | ok id' =>
        have hsilent : ¬ Silent topic b.world := by
          intro hu
          obtain ⟨_, herr, -⟩ := hu.verdict (p := p) hne hx hk he
          cases hv.symm.trans herr
        obtain ⟨rfl, targets, hroute, rfl⟩ := published_of_goes (p := p) he hv
        rw [hx, hk] at hroute
        have hlayout := (receives_foldl b.world.site.store
          { body := p.body, headers := p.headers.insert messageIdHeader id' }
          (nodup_route hroute)).layout
        exact ⟨.told hi ⟨rfl, fun _ => SortedTable.get?_insert _ _ _ _⟩
          (hb.spreads hne hroute _) hsilent, hb.of_layout hlayout rfl rfl⟩

/-- What is kept by every move. -/
structure Kept (p : Publication Nat) (topic : String) (y : Courier) : Prop where
  sound : y.bureau.Sound
  told : Told p topic y.call y.steps

theorem Kept.step {y : Courier} (h : Kept p topic y) (hne : topic ≠ "") (hx : p.exchange = topic)
    (hk : p.key = topic) (hs : p.sending = none) (move : Move) : Kept p topic (y.step move) := by
  cases move with
  | other m => exact ⟨h.sound.step m, h.told⟩
  | work opens =>
    obtain ⟨b, q | r, steps⟩ := y
    · obtain ⟨htold, hsound⟩ := told_work h.sound hne hx hk hs h.told opens
      exact ⟨hsound, htold⟩
    · exact h

theorem kept_run (hb : b.Sound) (hne : topic ≠ "") (hx : p.exchange = topic) (hk : p.key = topic)
    (hs : p.sending = none) (moves : List Move) : Kept p topic (run b p moves) :=
  List.foldlRecOn moves Courier.step ⟨hb, .unbegun⟩ fun _ h move _ => h.step hne hx hk hs move

end Steps

/-! ## Topics to which nobody listens -/

/-- A world that has become of another one while a topology was served, and in which nobody listens
to a topic. -/
structure Unheard (t : Topology) (topic : String) (w₀ w : HubWorld) : Prop where
  serving : Serving t w
  closedChannels : w.site.store.closedChannels = w₀.site.store.closedChannels
  silent : Silent topic w

/-- How many steps a publication is from its end, if it is answered. -/
inductive Coming (p : Publication Nat) (h : Hub) : Publication Nat → Nat → Prop
  | unbegun : Coming p h p 4
  | underway {id : String} {e : Execution Nat} {k : Nat} (he : e.client = p.client.client)
      (hn : Nearing h e.phase k) : Coming p h (p.sent id e) k

section Unheard

variable {t : Topology} {topic : String} {w₀ w : HubWorld} {p q : Publication Nat} {k : Nat}

theorem Coming.exists_succ {h : Hub} (hq : Coming p h q k) : ∃ k', k = k' + 1 := by
  cases hq with
  | unbegun => exact ⟨3, rfl⟩
  | underway _ hn => exact hn.exists_succ

/-- A publication to a topic to which nobody listens comes a step nearer to its end, and ends as
unroutable. -/
theorem Unheard.step (h : Unheard t topic w₀ w) (hne : topic ≠ "") (hp : p.client = t.client)
    (hx : p.exchange = topic) (hk : p.key = topic) (hs : p.sending = none) (opens : Bool)
    (hq : Coming p w₀.site.store q (k + 1)) :
    (∃ q', (q.step w opens).2 = .moves q' ∧ Coming p w₀.site.store q' k) ∨
      (q.step w opens).2 = .ends (.error (.unroutable topic topic)) := by
  generalize hm : k + 1 = m at hq
  cases hq with
  | unbegun =>
    obtain rfl : k = 3 := Nat.succ.inj hm
    left
    simp only [Publication.step, hs]
    split
    · exact ⟨_, rfl, .underway rfl (.entering _)⟩
    · exact ⟨_, rfl, .underway rfl (.entering _)⟩
  | @underway id e _ he hn =>
    subst hm
    have hsending : (p.sent id e).sending = some (id, e) := rfl
    have hrequest : (p.sent id e).request id = p.request id := rfl
    have hnear := hn.congr h.closedChannels
    rcases h.serving.step_nearing opens (p.request id) (he.trans (congrArg _ hp)) hnear with
      ⟨e', hstep, he', hn'⟩ | ⟨rfl, c, hrun, hup, hcan⟩
    · refine .inl ⟨p.sent id e', ?_, .underway (he'.trans (congrArg _ hp).symm)
        (hn'.congr h.closedChannels.symm)⟩
      simp only [Publication.step, hsending, hrequest, hstep]
      rfl
    · right
      have hreply : request w.site.store c (p.request id) =
          (w.site.store, .ok (.confirmed .returned)) := h.silent.returned hne hx hup
      have hexecution : (e.step (asking (p.request id)) w opens).2 =
          .ends ⟨e.attempts, .ok (.confirmed .returned)⟩ := by
        simp [Execution.step, hrun, hcan, asking, Operation.atOnce, hreply, Execution.finish]
      simp only [Publication.step, hsending, hrequest, hexecution]
      simp only [Publication.verdict, Publication.sent, hx, hk]

theorem run_append (b : Bureau) (p : Publication Nat) (front : List Move) (move : Move) :
    run b p (front ++ [move]) = (run b p front).step move := by
  rw [run, List.foldl_append]
  rfl

theorem works_append (front : List Move) (move : Move) :
    works (front ++ [move]) = works front + works [move] := by
  induction front with
  | nil => simp [works]
  | cons m rest ih => cases m <;> simp only [List.cons_append, works, ih, Nat.add_right_comm]

/-- As long as nobody listens to its topic, a publication has at most four steps to take, and ends
as unroutable. -/
theorem unroutable_run (hne : topic ≠ "") (hp : p.client = t.client) (hx : p.exchange = topic)
    (hk : p.key = topic) (hs : p.sending = none) (b : Bureau) (moves : List Move)
    (hm : ∀ front, front <+: moves → Unheard t topic b.world (run b p front).bureau.world) :
    (∃ q k, (run b p moves).call = .inl q ∧ Coming p b.world.site.store q k ∧
        k + works moves ≤ 4) ∨
      (run b p moves).call = .inr (.error (.unroutable topic topic)) := by
  -- the moves grow at their end, so that the last step is at hand
  induction moves using List.reverseRecOn with
  | nil => exact .inl ⟨p, 4, rfl, .unbegun, Nat.le_refl 4⟩
  | append_singleton front move ih =>
    have hprefix : front <+: front ++ [move] := List.prefix_append front [move]
    have hbound := ih fun _ hf => hm _ (hf.trans hprefix)
    have hworld := hm front hprefix
    rw [run_append, works_append]
    generalize run b p front = y at hbound hworld ⊢
    obtain ⟨b', q | r, steps⟩ := y
    case inr =>
      rcases hbound with ⟨q, k, hcall, -⟩ | hcall
      · cases hcall
      · cases move <;> exact .inr hcall
    rcases hbound with ⟨q', k, hcall, hcoming, hle⟩ | hcall
    case inr => cases hcall
    cases hcall
    cases move with
    | other m => exact .inl ⟨q, k, rfl, hcoming, hle⟩
    | work opens =>
      obtain ⟨k, rfl⟩ := hcoming.exists_succ
      rcases hworld.step hne hp hx hk hs opens hcoming with ⟨q', hstep, hcoming'⟩ | hstep
      · refine .inl ⟨q', k, ?_, hcoming', ?_⟩
        · simp only [Courier.step, hstep]
          rfl
        · simp only [works]
          omega
      · right
        simp only [Courier.step, hstep]
        rfl

end Unheard

/-- What a notification comes to. -/
structure Notified (a : Announcer) (topic : String) (body : Bytes) (b : Bureau)
    (moves : List Move) : Prop where
  /-- If it succeeds, its last step has brought the message to the subscribers, and no other step
  has changed anything. -/
  ok : ∀ id, (run b (a.notify topic body) moves).call = .inr (.ok id) →
    ∃ front b' w m, (run b (a.notify topic body) moves).steps = front ++ [(b', w)] ∧
      Idle front ∧ Posting.Carries (a.notify topic body) id m ∧ Spreads topic m b' w
  /-- If it does not, or not yet, it has changed nothing. -/
  idle : (∀ id, (run b (a.notify topic body) moves).call ≠ .inr (.ok id)) →
    Idle (run b (a.notify topic body) moves).steps
  /-- If there is the exchange of the topic, but nothing is bound to it when the notification ends,
  it ends as unroutable, unless it was given up. -/
  silent : ∀ front b' w r, (run b (a.notify topic body) moves).steps = front ++ [(b', w)] →
    (run b (a.notify topic body) moves).call = .inr r → Silent topic b'.world →
    ∃ err, r = .error err ∧ (err = .unroutable topic topic ∨ GivenUp err)
  /-- If that is so all the time while its client is served, it ends as unroutable within four
  steps. -/
  unroutable : (∀ front, front <+: moves → Unheard a.topology topic b.world
      (run b (a.notify topic body) front).bureau.world) → 4 ≤ works moves →
    (run b (a.notify topic body) moves).call = .inr (.error (.unroutable topic topic))

/-- Whatever publishers and subscribers have done before, and whatever happens beside it, a
notification that succeeds reaches every subscriber whose subscription stands, once. -/
theorem notified_run {w : HubWorld} (hw : Bureau.Fresh w) {topic : String} (hne : topic ≠ "")
    (before : List Bureau.Move) (a : Announcer) (body : Bytes) (moves : List Move) :
    Notified a topic body (Bureau.run w before) moves := by
  have htold := (kept_run (p := a.notify topic body) (Bureau.sound_run hw before) hne rfl rfl rfl
    moves).told
  refine ⟨fun id hid => ?_, fun hnot => ?_, fun front b' w' r hsteps hr hu => ?_,
    fun hm hworks => ?_⟩
  · rw [hid] at htold
    generalize (run (Bureau.run w before) (a.notify topic body) moves).steps = steps at htold ⊢
    cases htold with
    | told hi hc hs _ => exact ⟨_, _, _, _, rfl, hi, hc, hs⟩
  · generalize (run (Bureau.run w before) (a.notify topic body) moves).steps = steps at htold ⊢
    generalize (run (Bureau.run w before) (a.notify topic body) moves).call = call at htold hnot
    cases htold with
    | unbegun => exact .nil
    | underway hi => exact hi
    | failed hi _ => exact hi
    | @told id => exact absurd rfl (hnot id)
  · rw [hsteps, hr] at htold
    generalize hlast : front ++ [(b', w')] = steps at htold
    cases htold with
    | failed _ hwhy =>
      cases (List.append_inj' hlast rfl).2
      exact ⟨_, rfl, hwhy hu⟩
    | told _ _ _ hwhy =>
      cases (List.append_inj' hlast rfl).2
      exact absurd hu hwhy
  · rcases unroutable_run hne rfl rfl rfl rfl _ moves hm with ⟨q, k, -, hcoming, hle⟩ | hcall
    · obtain ⟨k, rfl⟩ := hcoming.exists_succ
      omega
    · exact hcall

/-- A world with two subscribers. -/
def sharedWorld : HubWorld :=
  { freshWorld with
    site := { freshWorld.site with
      subscribers := [{ topology := freshTopology, id := ⟨7⟩ },
        { topology := freshTopology, id := ⟨8⟩ }] } }

theorem fresh_sharedWorld : Bureau.Fresh sharedWorld where
  bindings := rfl
  records r hr := List.mem_singleton.1 hr
  subscribers s hs := by
    simp only [sharedWorld, List.mem_cons, List.not_mem_nil, or_false] at hs
    rcases hs with rfl | rfl <;> rfl

/-- A publisher of topics there. -/
def sharedAnnouncer : Announcer := { topology := freshTopology }

/-- A call takes some steps. -/
def goes (i n : Nat) : List Bureau.Move := List.replicate n (.work i false)

/-- A topic with a pattern in it reaches both its subscribers. -/
theorem notified_two_subscribers :
    let topic := "news.#"
    let before := [.subscribe 0 topic] ++ goes 0 9 ++ [.subscribe 1 topic] ++ goes 0 9
    let b := Bureau.run sharedWorld before
    let moves := List.replicate 4 (Move.work false)
    Bureau.Fresh sharedWorld ∧ topic ≠ "" ∧
      Bureau.Standing topic ⟨7⟩ b.log ∧ Bureau.Standing topic ⟨8⟩ b.log ∧
      (run b (sharedAnnouncer.notify topic [1]) moves).call = .inr (.ok (Identifier.text ⟨1⟩)) ∧
      Notified sharedAnnouncer topic [1] b moves := by
  intro topic before b moves
  have hne : topic ≠ "" := by decide
  let subscription (id : Identifier) : List Note :=
    [.made (.declare (topicQueue topic (topicQueueName topic id))) [],
      .made (.declare (topicExchange topic)) []]
  have hlog : b.log = subscription ⟨8⟩ ++ subscription ⟨7⟩ := by decide +kernel
  have hends : ∀ id, ∀ n ∈ subscription id, ∀ queue, ¬ n.Ends topic queue := by
    intro id n hn queue
    simp only [subscription, List.mem_cons, List.not_mem_nil, or_false] at hn
    rcases hn with rfl | rfl <;> exact not_or.2 ⟨not_false, not_false⟩
  refine ⟨fresh_sharedWorld, hne, ⟨[], ⟨subscription ⟨8⟩, _, hlog, ?_⟩, List.not_mem_nil⟩,
    ⟨[], ⟨[], _, hlog, nofun⟩, List.not_mem_nil⟩, by decide +kernel,
    notified_run fresh_sharedWorld hne before sharedAnnouncer [1] moves⟩
  exact fun n hn => hends ⟨8⟩ n hn _

/-- A subscriber listens to a topic, which is removed before the queue is declared again, so that
the queue is to be withdrawn. Though both subscribers have subscribed again by then, it is
withdrawn, and the next notification does not reach it. -/
theorem notified_without_queue :
    ∃ (w : HubWorld) (topic : String) (id : Identifier) (withdrawing : List String)
      (before : List Bureau.Move) (moves : List Move) (m : String),
      Bureau.Fresh w ∧ topic ≠ "" ∧
      Bureau.Subscribed topic (topicQueueName topic id) withdrawing (Bureau.run w before).log ∧
      (run (Bureau.run w before) (sharedAnnouncer.notify topic [1]) moves).call = .inr (.ok m) ∧
      (run (Bureau.run w before) (sharedAnnouncer.notify topic [1])
        moves).bureau.world.site.store.held (topicQueueName topic id) = [] := by
  let topic := "news"
  let queue := topicQueueName topic ⟨7⟩
  let before := [.subscribe 0 topic] ++ goes 0 9 ++ [.listen 0 topic "root"] ++ goes 0 5 ++
    [.removeTopic sharedAnnouncer topic] ++ goes 1 5 ++ goes 0 3 ++
    [.subscribe 1 topic] ++ goes 1 9 ++ [.subscribe 0 topic] ++ goes 1 9 ++ goes 0 4
  exact ⟨sharedWorld, topic, ⟨7⟩, [queue], before, List.replicate 4 (.work false),
    Identifier.text ⟨1⟩, fresh_sharedWorld, by decide,
    ⟨[], (Bureau.run sharedWorld before).log.tail, by decide +kernel, nofun⟩,
    by decide +kernel, by decide +kernel⟩

end Courier

end Reconnect.Rehearsal
