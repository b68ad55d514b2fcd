import Reconnect.Proofs.Broker.Topic
import Reconnect.Proofs.Rehearsal.Extent
import Reconnect.Proofs.Rehearsal.Redeclaration

/-!
# Publishers and subscribers at one broker

In a bureau publishers and subscribers of topics work at one broker. Their calls take turns step by
step, and between two steps anything else may be asked of the broker or happen to it, except that
nobody else binds the queue of a subscriber to another exchange. A log keeps what may end a
subscription, and which steps of topologies have been made.

The last step of a subscription declares the queue with its binding to the topic. If nobody is about
to withdraw that queue then, the queue takes the topic until the topic or the queue is deleted or
the broker is reset (`Bureau.sound_run`). A call that withdraws a queue began to do so because the
topic was gone, and does not look whether it has been declared again since.
-/

namespace Reconnect.Rehearsal

open Broker

/-! ## Proper bindings -/

/-- Whether a binding leaves the queues of subscribers to their topics. -/
def Binding.Proper (b : Binding) : Prop :=
  ∀ topic id, b.queue = topicQueueName topic id → b.exchange = topic

/-- Whether a step of a topology makes proper bindings only. -/
def ProperStep (s : TopologyStep) : Prop := ∀ b, (extentOf s).bindings b → b.Proper

/-- A queue that takes the messages of a topic. -/
structure Layout.Takes (ℓ : Layout) (topic queue : String) : Prop where
  bound : ℓ.bound ⟨queue, topic, topic⟩
  exchange : (ℓ.exchange? topic).isSome = true
  queue : (ℓ.queue? queue).isSome = true

theorem Layout.Takes.reaches {ℓ ℓ' : Layout} {x : Extent} {topic queue : String}
    (h : ℓ.Takes topic queue) (hw : ℓ.Reaches x ℓ') (hx : ¬ x.exchanges topic)
    (hq : ¬ x.queues queue) : ℓ'.Takes topic queue where
  exchange := (hw.exchange topic h.exchange).resolve_left hx
  queue := (hw.queue queue h.queue).resolve_left hq
  bound := ((hw.kept _ h.bound).resolve_left hx).resolve_left hq

/-- A queue that is declared with its binding to a topic takes the topic. -/
theorem takes_declare {ℓ : Layout} {topic queue : String} (ha : ℓ.Admits (topicQueue topic queue)) :
    (ℓ.declare (topicQueue topic queue)).Takes topic queue where
  bound := .inr ⟨rfl, List.mem_singleton.2 rfl⟩
  exchange := by
    have hx := ha ⟨topic, topic⟩ (List.mem_singleton.2 rfl)
    simp [Layout.declare, hx]
  queue := by simp [Layout.declare, topicQueue, shapeOf?, QueueOptions.ofPersistence]

theorem properStep_topicExchange (topic : String) : ProperStep (.declare (topicExchange topic)) :=
  fun _ hb => absurd hb.2 List.not_mem_nil

theorem properStep_topicQueue (topic : String) (id : Identifier) :
    ProperStep (.declare (topicQueue topic (topicQueueName topic id))) := by
  rintro b ⟨hqueue, hbinding⟩ topic' id' hname
  obtain rfl : topic = topic' := (topicQueueName_inj.1 (hqueue.symm.trans hname)).1
  exact congrArg QueueBinding.exchange (List.mem_singleton.1 hbinding)

theorem properStep_delete (queue : Bool) (name : String) : ProperStep (.delete queue name) := by
  intro b hb
  cases queue <;> exact False.elim hb

/-! ## The bureau -/

/-- What is kept in the log. -/
inductive Note where
  /-- A call has made a step of a topology, while other calls were about to withdraw some queues. -/
  | made (s : TopologyStep) (withdrawing : List String)
  /-- Something else was asked of the broker or happened to it. -/
  | passed (m : Hub.Move)
  deriving DecidableEq

def Note.extent : Note → Extent
  | .made s _ => extentOf s
  | .passed m => m.extent

/-- Whether something ends the subscriptions to a topic, or that of a queue. -/
def Note.Ends (n : Note) (topic queue : String) : Prop :=
  n.extent.exchanges topic ∨ n.extent.queues queue

/-- Publishers and subscribers at a broker: the world, the calls under way, and the log, the last
entry first. -/
structure Bureau where
  world : HubWorld
  calls : List (Arrangement Nat) := []
  log : List Note := []

/-- The queue that a call is about to withdraw. -/
def withdrawn? (a : Arrangement Nat) : Option String :=
  match a.phase with
  | .withdrawing queue _ _ _ => some queue
  | _ => none

/-- The step that a call has made on its way to a state. -/
def made? (a a' : Arrangement Nat) : Option TopologyStep :=
  match a.phase, a'.phase with
  | .asking s _, .ready => some s
  | _, _ => none

namespace Bureau

/-- The queues that calls are about to withdraw. -/
def withdrawing (b : Bureau) : List String := b.calls.filterMap withdrawn?

/-- What can happen next. A topic that is not given is the main topic. -/
inductive Move where
  /-- A new subscriber appears. -/
  | join (t : Topology)
  /-- A subscriber begins to subscribe to a topic. -/
  | subscribe (i : Nat) (topic : String)
  | unsubscribe (i : Nat) (topic : String)
  | listen (i : Nat) (topic context : String)
  | declareTopic (a : Announcer) (topic : String)
  | removeTopic (a : Announcer) (topic : String)
  | redeclare (t : Topology)
  /-- Some other call of a topology begins. -/
  | arrange (t : Topology) (steps : List TopologyStep) (hs : ∀ s ∈ steps, ProperStep s)
  /-- A call takes a step. -/
  | work (n : Nat) (opens : Bool)
  /-- A call is given up. -/
  | abandon (n : Nat)
  /-- Something else is asked of the broker, or happens to it. -/
  | other (m : Hub.Move) (hm : ∀ b, m.extent.bindings b → b.Proper)
  /-- Something happens elsewhere in the world. -/
  | drift (f : HubWorld → HubWorld) (hf : ∀ w, (f w).site = w.site)

/-- A call begins. -/
def start (b : Bureau) (a : Arrangement Nat) : Bureau := { b with calls := b.calls ++ [a] }

/-- Changes a subscriber. -/
def change (b : Bureau) (i : Nat) (s : Subscriber) : Bureau :=
  let site := b.world.site
  { b with world := { b.world with site := { site with subscribers := site.subscribers.set i s } } }

/-- The bureau after a step of a call, which may have come to its end. -/
def goOn (b : Bureau) (n : Nat) (a : Arrangement Nat) (w : HubWorld) :
    Option (Arrangement Nat) → Bureau
  | none => { b with world := w, calls := b.calls.eraseIdx n }
  | some a' =>
    { world := w
      calls := b.calls.set n a'
      log := ((made? a a').map (.made · b.withdrawing)).toList ++ b.log }

/-- A call takes a step. -/
def work (b : Bureau) (n : Nat) (opens : Bool) : Bureau :=
  match b.calls[n]? with
  | none => b
  | some a => let r := a.step b.world opens; b.goOn n a r.1 r.2.state?

/-- One move. -/
def step (b : Bureau) : Move → Bureau
  | .join topology =>
    let r := b.world.draw
    let site := r.1.site
    let s : Subscriber := { topology, id := r.2 }
    { b with world := { r.1 with site := { site with subscribers := site.subscribers ++ [s] } } }
  | .subscribe i topic =>
    match b.world.site.subscribers[i]? with
    | none => b
    | some s => let r := s.subscribe topic; (b.change i r.1).start r.2
  | .unsubscribe i topic =>
    match b.world.site.subscribers[i]? with
    | none => b
    | some s => let r := s.unsubscribe topic; (b.change i r.1).start r.2
  | .listen i topic context =>
    match b.world.site.subscribers[i]? with
    | none => b
    | some s =>
      match s.listen topic context with
      | .error _ => b
      | .ok r => b.start r.1
  | .declareTopic a topic => b.start (a.declareTopic topic)
  | .removeTopic a topic => b.start (a.removeTopic topic)
  | .redeclare t => b.start (.restore b.world t)
  | .arrange topology steps _ => b.start { topology, steps }
  | .work n opens => b.work n opens
  | .abandon n => { b with calls := b.calls.eraseIdx n }
  | .other m _ =>
    { b with world := withStore b.world (m.step b.world.site.store), log := .passed m :: b.log }
  | .drift f _ => { b with world := f b.world }

/-- The bureau that a list of moves leads to. -/
def run (w : HubWorld) (moves : List Move) : Bureau := moves.foldl step { world := w }

/-! ## Subscriptions -/

/-- Whether the subscription of a queue to a topic has succeeded, while calls were about to withdraw
some queues, and has not been ended since. Its last step declares the queue. -/
def Subscribed (topic queue : String) (withdrawing : List String) (log : List Note) : Prop :=
  ∃ later earlier, log = later ++ .made (.declare (topicQueue topic queue)) withdrawing :: earlier ∧
    ∀ n ∈ later, ¬ n.Ends topic queue

/-- Whether a subscriber is subscribed to a topic, and no call was about to withdraw the queue when
the subscription succeeded. -/
def Standing (topic : String) (id : Identifier) (log : List Note) : Prop :=
  ∃ withdrawing, Subscribed topic (topicQueueName topic id) withdrawing log ∧
    topicQueueName topic id ∉ withdrawing

theorem subscribed_cons {topic queue : String} {withdrawing : List String} {n : Note}
    {log : List Note} (h : Subscribed topic queue withdrawing (n :: log)) :
    n = .made (.declare (topicQueue topic queue)) withdrawing ∨
      Subscribed topic queue withdrawing log ∧ ¬ n.Ends topic queue := by
  obtain ⟨later, earlier, hlog, hends⟩ := h
  cases later with
  | nil => exact .inl (List.cons.inj hlog).1
  | cons n' later =>
    rw [List.cons_append] at hlog
    obtain ⟨rfl, hrest⟩ := List.cons.inj hlog
    exact .inr ⟨⟨later, earlier, hrest, fun n hn => hends n (List.mem_cons_of_mem _ hn)⟩,
      hends n List.mem_cons_self⟩

/-- A world in which nobody has subscribed to anything yet. -/
structure Fresh (w : HubWorld) : Prop where
  bindings : w.site.store.bindings = []
  records : ∀ r ∈ w.site.records, r = []
  subscribers : ∀ s ∈ w.site.subscribers, s.queues = .empty

/-- A subscriber whose queues have the names of their topics. -/
def Named (s : Subscriber) : Prop :=
  ∀ topic queue, s.queue? topic = some queue → queue = topicQueueName topic s.id

/-- A bureau in which all bindings are proper, those that are still to be made included, and every
queue takes the topics for which a subscription stands. -/
structure Sound (b : Bureau) : Prop where
  named : ∀ s ∈ b.world.site.subscribers, Named s
  records : ∀ r ∈ b.world.site.records, ∀ d ∈ r, ProperStep (.declare d)
  calls : ∀ a ∈ b.calls, ∀ s ∈ pending a, ProperStep s
  bindings : ∀ x, b.world.site.store.layout.bound x → x.Proper
  standing : ∀ topic id, Standing topic id b.log →
    b.world.site.store.layout.Takes topic (topicQueueName topic id) ∧
      topicQueueName topic id ∉ b.withdrawing

/-! ## What a step of a call does at the site -/

section Steps

variable {w w' : HubWorld} {a a' : Arrangement Nat} {opens : Bool}

/-- An execution of a request leaves the site alone or makes the request. -/
theorem site_cases {r : Request} {e : Execution Nat}
    {x : Step (Execution Nat) (Execution.Outcome (Broker.Reply Nat))}
    (h : e.Goes (asking r) w opens w' x) :
    w'.site = w.site ∨ ∃ c, w'.site = { w.site with store := (request w.site.store c r).1 } := by
  cases h.atOnce with
  | idle => exact .inl rfl
  | succeed _ hr => exact .inr ⟨_, congrArg World.site (Prod.mk.inj hr).1.symm⟩
  | retry _ hr =>
    rw [World.report_site]
    exact .inr ⟨_, congrArg World.site (Prod.mk.inj hr).1.symm⟩
  | refuse _ hr => exact .inr ⟨_, congrArg World.site (Prod.mk.inj hr).1.symm⟩

/-- A request of a topology that is answered has taken effect, or a binding was refused. -/
theorem answer_cases {h : Hub} {c : Nat} {s : TopologyStep} {reply : Broker.Reply Nat}
    (hr : (request h c s.request).2 = .ok reply) :
    reply = .done ∧ h.layout.Allows s ∧
        (request h c s.request).1.layout = h.layout.after s ∨
      (∃ x f, reply = .refused x f) ∧ ¬ h.layout.Allows s := by
  have hserved := request_served h c s
  generalize request h c s.request = answer at hserved hr ⊢
  cases hserved with
  | fault => cases hr
  | done _ ha hl =>
    cases hr
    exact .inl ⟨rfl, ha, hl⟩
  | refused _ ha =>
    cases hr
    exact .inr ⟨⟨_, _, rfl⟩, ha⟩

/-- A call that has come to another state without having made a step. -/
structure Stays (a a' : Arrangement Nat) : Prop where
  made : made? a a' = none
  pending : pending a' ⊆ pending a
  withdrawn : withdrawn? a' = withdrawn? a

theorem mem_pending {s : TopologyStep} {e : Execution Nat} (hp : a.phase = .asking s e) :
    s ∈ pending a := by
  rw [pending, hp]
  exact List.mem_cons_self

theorem stays_asking {s : TopologyStep} {e e' : Execution Nat} (hp : a.phase = .asking s e) :
    Stays a { a with phase := .asking s e' } := by
  constructor <;> simp [made?, pending, withdrawn?, hp]

theorem stays_withdrawing {queue : String} {x : QueueBinding} {f : Fault} {e e' : Execution Nat}
    (hp : a.phase = .withdrawing queue x f e) :
    Stays a { a with phase := .withdrawing queue x f e' } := by
  constructor <;> simp [made?, pending, withdrawn?, hp]

/-- What a step of a call does at the site, and the state of the call afterwards, unless it has come
to its end. -/
inductive Wrought (w : HubWorld) (a : Arrangement Nat) : HubWorld → Option (Arrangement Nat) → Prop
  /-- A call that has not made a step may have withdrawn a queue. -/
  | passes {w' : HubWorld} {a? : Option (Arrangement Nat)}
      (hl : w.site.store.layout.Reaches { queues := (withdrawn? a = some ·) } w'.site.store.layout)
      (hr : w'.site.records = w.site.records) (hs : w'.site.subscribers = w.site.subscribers)
      (ha : ∀ a', a? = some a' → Stays a a') : Wrought w a w' a?
  | makes {s : TopologyStep} {e : Execution Nat} {h' : Hub} (hp : a.phase = .asking s e)
      (ha : w.site.store.layout.Allows s) (hl : h'.layout = w.site.store.layout.after s)
      (hw : w.site.store.layout.Reaches (extentOf s) h'.layout) :
      Wrought w a (changeRecord (withStore w h') a.topology.record (s.update ·))
        (some { a with phase := .ready })
  /-- Some of the bindings may have been made before one was refused. -/
  | refused {s : TopologyStep} {e e' : Execution Nat} {h' : Hub} {x : QueueBinding} {f : Fault}
      (hp : a.phase = .asking s e) (ha : ¬ w.site.store.layout.Allows s)
      (hw : w.site.store.layout.Reaches (extentOf s) h'.layout) :
      Wrought w a (withStore w h') (some { a with phase := .withdrawing s.name x f e' })

theorem wrought_idle {a? : Option (Arrangement Nat)} (hsite : w'.site = w.site)
    (ha : ∀ a', a? = some a' → Stays a a') : Wrought w a w' a? :=
  .passes (.of_eq (by rw [hsite])) (by rw [hsite]) (by rw [hsite]) ha

/-- A request to withdraw a queue, however it is answered. -/
theorem wrought_withdrawing {queue : String} {x : QueueBinding} {f : Fault} {e : Execution Nat}
    {r : Step (Execution Nat) (Execution.Outcome (Broker.Reply Nat))}
    {a? : Option (Arrangement Nat)} (hp : a.phase = .withdrawing queue x f e)
    (he : e.Goes (asking (.deleteQueue queue true true)) w opens w' r)
    (ha : ∀ a', a? = some a' → Stays a a') : Wrought w a w' a? := by
  rcases site_cases he with hsite | ⟨c, hsite⟩
  · exact wrought_idle hsite ha
  · have hqueue : withdrawn? a = some queue := by rw [withdrawn?, hp]
    refine .passes ?_ (by rw [hsite]) (by rw [hsite]) ha
    rw [hsite, hqueue]
    exact (Hub.Move.reaches w.site.store (.deleteQueue c queue true true)).mono (fun _ => id)
      (fun _ he => congrArg some he.symm) fun _ => id

theorem wrought_step (w : HubWorld) (a : Arrangement Nat) (opens : Bool) :
    Wrought w a (a.step w opens).1 (a.step w opens).2.state? := by
  have hended : ∀ a', (none : Option (Arrangement Nat)) = some a' → Stays a a' :=
    fun a' h => by cases h
  have hgoesOn : ∀ {a'}, Stays a a' → ∀ a'', some a' = some a'' → Stays a a'' :=
    fun hs a'' h => Option.some.inj h ▸ hs
  have hg := a.goes_step w opens
  generalize (a.step w opens).1 = w' at hg ⊢
  generalize (a.step w opens).2 = x at hg ⊢
  cases hg with
  | done => exact wrought_idle rfl hended
  | turn hp hs =>
    refine wrought_idle rfl (hgoesOn ?_)
    constructor <;> simp [made?, pending, withdrawn?, hp, hs]
  | askWaits hp he =>
    exact wrought_idle (site_of_goes he fun _ _ h => by cases h) (hgoesOn (stays_asking hp))
  | askMoves hp he =>
    exact wrought_idle (site_of_goes he fun _ _ h => by cases h) (hgoesOn (stays_asking hp))
  | askFailed _ he => exact wrought_idle (site_of_goes he fun _ _ h => by cases h) hended
  | @refused s e w₁ n x f hp he =>
    obtain ⟨c, rfl, hreply⟩ := answered_of_goes he
    rcases answer_cases hreply with ⟨hdone, -⟩ | ⟨-, ha⟩
    · cases hdone
    · exact .refused hp ha (request_reaches w.site.store c s)
  | @succeed s e w₁ n reply hp hr he =>
    obtain ⟨c, rfl, hreply⟩ := answered_of_goes he
    rcases answer_cases hreply with ⟨-, ha, hl⟩ | ⟨⟨x, f, hrefused⟩, -⟩
    · exact .makes hp ha hl (request_reaches w.site.store c s)
    · exact absurd hrefused (hr x f)
  | withdrawWaits hp he => exact wrought_withdrawing hp he (hgoesOn (stays_withdrawing hp))
  | withdrawMoves hp he => exact wrought_withdrawing hp he (hgoesOn (stays_withdrawing hp))
  | withdrawn hp he => exact wrought_withdrawing hp he hended

end Steps

/-! ## What is kept -/

theorem mem_modify {α : Type} {l : List α} {f : α → α} {i : Nat} {a : α}
    (h : a ∈ l.modify i f) : a ∈ l ∨ ∃ a' ∈ l, a = f a' := by
  obtain ⟨j, hj⟩ := List.mem_iff_getElem?.1 h
  rw [List.getElem?_modify] at hj
  obtain ⟨a', ha', rfl⟩ := Option.map_eq_some_iff.1 hj
  split
  · exact .inr ⟨a', List.mem_of_getElem? ha', rfl⟩
  · exact .inl (List.mem_of_getElem? ha')

namespace Wrought

variable {w w' : HubWorld} {a a' : Arrangement Nat} {a? : Option (Arrangement Nat)}

theorem subscribers (h : Wrought w a w' a?) : w'.site.subscribers = w.site.subscribers := by
  cases h with
  | passes _ _ hs => exact hs
  | makes => rfl
  | refused => rfl

theorem pending_subset (h : Wrought w a w' (some a')) : pending a' ⊆ pending a := by
  cases h with
  | passes _ _ _ ha => exact (ha a' rfl).pending
  | makes hp => simp [pending, hp]
  | refused hp => simp [pending, hp]

/-- Only a step that has been made changes a record. -/
theorem records (h : Wrought w a w' a?) {r : Record} (hr : r ∈ w'.site.records) :
    r ∈ w.site.records ∨ ∃ s ∈ pending a, ∃ r' ∈ w.site.records, r = s.update r' := by
  cases h with
  | passes _ hsame => exact .inl (hsame ▸ hr)
  | makes hp => exact (mem_modify hr).imp_right fun hr => ⟨_, mem_pending hp, hr⟩
  | refused => exact .inl hr

theorem bound (h : Wrought w a w' a?) {x : Binding} (hx : w'.site.store.layout.bound x) :
    w.site.store.layout.bound x ∨ ∃ s ∈ pending a, (extentOf s).bindings x := by
  cases h with
  | passes hl => exact (hl.added x hx).imp_right False.elim
  | makes hp _ _ hw => exact (hw.added x hx).imp_right fun hs => ⟨_, mem_pending hp, hs⟩
  | refused hp _ hw => exact (hw.added x hx).imp_right fun hs => ⟨_, mem_pending hp, hs⟩

end Wrought

section Names

variable {s : Subscriber} {topic : String}

theorem properStep_bindQueue (s : Subscriber) (topic : String) :
    ∀ step ∈ (s.bindQueue topic (topicQueueName topic s.id) : Arrangement Nat).steps,
      ProperStep step := by
  intro step hstep
  rcases List.mem_cons.1 hstep with rfl | hstep
  · exact properStep_topicExchange topic
  · obtain rfl := List.mem_singleton.1 hstep
    exact properStep_topicQueue topic s.id

theorem Named.subscribe (hs : Named s) (topic : String) :
    Named (s.subscribe (C := Nat) topic).1 := by
  intro topic' queue hqueue
  simp only [Subscriber.subscribe, Subscriber.queue?, Hub.get?_insertNew] at hqueue
  rcases Option.or_eq_some_iff.1 hqueue with hqueue | ⟨-, hqueue⟩
  · exact hs topic' queue hqueue
  · split at hqueue
    · cases hqueue
      simp_all [Subscriber.subscribe]
    · cases hqueue

/-- A subscription declares the topic and then the queue of the topic and the subscriber. -/
theorem Named.subscribe_eq (hs : Named s) (topic : String) :
    (s.subscribe (C := Nat) topic).2 = s.bindQueue topic (topicQueueName topic s.id) := by
  have hsome : ((s.subscribe (C := Nat) topic).1.queue? topic).isSome = true := by
    simp [Subscriber.subscribe, Subscriber.queue?, Hub.get?_insertNew]
  obtain ⟨queue, hget⟩ := Option.isSome_iff_exists.1 hsome
  have hqueue : ((s.subscribe (C := Nat) topic).1.queue? topic).getD "" =
      topicQueueName topic s.id := by
    rw [hget]
    exact hs.subscribe topic topic queue hget
  rw [← hqueue]
  rfl

theorem Named.unsubscribe (hs : Named s) (topic : String) :
    Named (s.unsubscribe (C := Nat) topic).1 := by
  intro topic' queue hqueue
  simp only [Subscriber.unsubscribe, Subscriber.queue?, Table.get?_erase] at hqueue
  split at hqueue
  · cases hqueue
  · exact hs topic' queue hqueue

theorem unsubscribe_steps (s : Subscriber) (topic : String) :
    ∀ step ∈ (s.unsubscribe (C := Nat) topic).2.steps, ProperStep step := by
  intro step hstep
  obtain ⟨queue, -, rfl⟩ := List.mem_map.1 hstep
  exact properStep_delete true queue

end Names

theorem properStep_update {s : TopologyStep} (hs : ProperStep s) {r : Record}
    (hr : ∀ d ∈ r, ProperStep (.declare d)) : ∀ d ∈ s.update r, ProperStep (.declare d) := by
  intro d hd
  cases s with
  | declare d' =>
    rcases List.mem_append.1 hd with hd | hd
    · exact hr d (List.mem_filter.1 hd).1
    · obtain rfl := List.mem_singleton.1 hd
      exact hs
  | restore d' => exact hr d hd
  | delete queue name => exact hr d (List.mem_filter.1 hd).1

/-- The declaration of a queue that takes its topic is not refused. -/
theorem allows_of_takes {ℓ : Layout} {s : TopologyStep} {topic : String} {id : Identifier}
    (hs : ProperStep s) (ht : ℓ.Takes topic (topicQueueName topic id))
    (hn : s.name = topicQueueName topic id) : ℓ.Allows s := by
  have hadmits : ∀ d : Declaration, ProperStep (.declare d) → d.name = topicQueueName topic id →
      ℓ.Admits d := by
    intro d hd hname x hx
    have hx' : x.exchange = topic := hd ⟨d.name, x.exchange, x.routingKey⟩ ⟨rfl, hx⟩ topic id hname
    rw [hx']
    exact ht.exchange
  cases s with
  | declare d => exact hadmits d hs hn
  | restore d => exact hadmits d hs hn
  | delete => trivial

/-- What is refused takes nothing away. -/
theorem extent_of_not_allows {ℓ : Layout} {s : TopologyStep} (hs : ¬ ℓ.Allows s) (name : String) :
    ¬ (extentOf s).exchanges name ∧ ¬ (extentOf s).queues name := by
  cases s with
  | declare d => exact ⟨id, id⟩
  | restore d => exact ⟨id, id⟩
  | delete => exact absurd trivial hs

section Goes

variable {b : Bureau} {n : Nat} {a : Arrangement Nat} {w : HubWorld}
  {a? : Option (Arrangement Nat)}

@[simp] theorem goOn_world : (b.goOn n a w a?).world = w := by
  cases a? <;> rfl

theorem mem_calls_goOn {c : Arrangement Nat} (h : c ∈ (b.goOn n a w a?).calls) :
    c ∈ b.calls ∨ a? = some c := by
  cases a? with
  | none => exact .inl (List.mem_of_mem_eraseIdx h)
  | some a' => exact (List.mem_or_eq_of_mem_set h).imp_right fun he => congrArg some he.symm

theorem mem_withdrawing_goOn {queue : String} (h : queue ∈ (b.goOn n a w a?).withdrawing) :
    queue ∈ b.withdrawing ∨ ∃ a', a? = some a' ∧ withdrawn? a' = some queue := by
  obtain ⟨c, hc, hqueue⟩ := List.mem_filterMap.1 h
  rcases mem_calls_goOn hc with hc | hc
  · exact .inl (List.mem_filterMap.2 ⟨c, hc, hqueue⟩)
  · exact .inr ⟨c, hc, hqueue⟩

end Goes

namespace Sound

variable {b : Bureau}

/-- What stands before a step of a call stands afterwards, unless the step ends it; and the step may
be the last one of a subscription. -/
theorem standing_goOn (h : b.Sound) {n : Nat} {a : Arrangement Nat} {w : HubWorld}
    {a? : Option (Arrangement Nat)} (ha : a ∈ b.calls) (hw : Wrought b.world a w a?)
    {topic : String} {id : Identifier} (hs : Standing topic id (b.goOn n a w a?).log) :
    w.site.store.layout.Takes topic (topicQueueName topic id) ∧
      topicQueueName topic id ∉ (b.goOn n a w a?).withdrawing := by
  cases hw with
  | passes hl _ _ hstate =>
    have hlog : (b.goOn n a w a?).log = b.log := by
      cases a? with
      | none => rfl
      | some a' => simp [Bureau.goOn, (hstate a' rfl).made]
    rw [hlog] at hs
    obtain ⟨ht, hn⟩ := h.standing topic id hs
    -- a call that withdraws the queue would be counted among those that are about to
    have hother : withdrawn? a ≠ some (topicQueueName topic id) := fun hq =>
      hn (List.mem_filterMap.2 ⟨a, ha, hq⟩)
    refine ⟨ht.reaches hl not_false hother, fun hc => ?_⟩
    rcases mem_withdrawing_goOn hc with hc | ⟨a', ha', hq⟩
    · exact hn hc
    · exact hother ((hstate a' ha').withdrawn ▸ hq)
  | @makes s e h' hp hallows hl hreaches =>
    have hlog : ∀ w, (b.goOn n a w (some { a with phase := .ready })).log =
        .made s b.withdrawing :: b.log := by
      simp [Bureau.goOn, made?, hp]
    have hwithdrawing : ∀ w queue, queue ∉ b.withdrawing →
        queue ∉ (b.goOn n a w (some { a with phase := .ready })).withdrawing := by
      intro w queue hn hc
      rcases mem_withdrawing_goOn hc with hc | ⟨a', ha', hq⟩
      · exact hn hc
      · cases ha'
        cases hq
    rw [hlog] at hs
    obtain ⟨withdrawing, hsub, hnot⟩ := hs
    -- either this step has completed the subscription, or it stood before and is not ended by it
    rcases subscribed_cons hsub with hnote | ⟨hsub, hends⟩
    · cases hnote
      refine ⟨?_, hwithdrawing _ _ hnot⟩
      rw [changeRecord_store, withStore, hl]
      exact takes_declare hallows
    · obtain ⟨ht, hn⟩ := h.standing topic id ⟨withdrawing, hsub, hnot⟩
      obtain ⟨hx, hq⟩ := not_or.1 hends
      exact ⟨ht.reaches hreaches hx hq, hwithdrawing _ _ hn⟩
  | @refused s e e' h' x f hp hrefused hreaches =>
    have hlog : ∀ w, (b.goOn n a w (some { a with phase := .withdrawing s.name x f e' })).log =
        b.log := by
      simp [Bureau.goOn, made?, hp]
    rw [hlog] at hs
    obtain ⟨ht, hn⟩ := h.standing topic id hs
    have htakes := ht.reaches hreaches (extent_of_not_allows hrefused topic).1
      (extent_of_not_allows hrefused (topicQueueName topic id)).2
    refine ⟨htakes, fun hc => ?_⟩
    rcases mem_withdrawing_goOn hc with hc | ⟨a', ha', hq⟩
    · exact hn hc
    · -- the queue of a subscription that stands is not refused
      cases ha'
      have hproper := h.calls a ha s (mem_pending hp)
      exact hrefused (allows_of_takes hproper ht (Option.some.inj hq))

/-- A call takes a step. -/
theorem goOn (h : b.Sound) {n : Nat} {a : Arrangement Nat} {w : HubWorld}
    {a? : Option (Arrangement Nat)} (ha : a ∈ b.calls) (hw : Wrought b.world a w a?) :
    (b.goOn n a w a?).Sound where
  named := by
    rw [goOn_world, hw.subscribers]
    exact h.named
  records r hr := by
    rw [goOn_world] at hr
    rcases hw.records hr with hr | ⟨s, hs, r', hr', rfl⟩
    · exact h.records r hr
    · exact properStep_update (h.calls a ha s hs) (h.records r' hr')
  calls c hc := by
    rcases mem_calls_goOn hc with hc | rfl
    · exact h.calls c hc
    · exact fun s hs => h.calls a ha s (hw.pending_subset hs)
  bindings x hx := by
    rw [goOn_world] at hx
    rcases hw.bound hx with hx | ⟨s, hs, hx⟩
    · exact h.bindings x hx
    · exact h.calls a ha s hs x hx
  standing topic id hs := by
    rw [goOn_world]
    exact h.standing_goOn ha hw hs

theorem work (h : b.Sound) (n : Nat) (opens : Bool) : (b.work n opens).Sound := by
  rw [Bureau.work]
  split
  · exact h
  · rename_i a ha
    exact h.goOn (List.mem_of_getElem? ha) (wrought_step b.world a opens)

theorem start (h : b.Sound) {a : Arrangement Nat} (ha : ∀ s ∈ pending a, ProperStep s)
    (hw : withdrawn? a = none) : (b.start a).Sound where
  named := h.named
  records := h.records
  calls c hc := by
    rcases List.mem_append.1 hc with hc | hc
    · exact h.calls c hc
    · obtain rfl := List.mem_singleton.1 hc
      exact ha
  bindings := h.bindings
  standing topic id hs := by
    obtain ⟨ht, hn⟩ := h.standing topic id hs
    refine ⟨ht, fun hc => hn ?_⟩
    rw [withdrawing, Bureau.start, List.filterMap_append] at hc
    rcases List.mem_append.1 hc with hc | hc
    · exact hc
    · simp [hw] at hc

theorem change (h : b.Sound) (i : Nat) {s : Subscriber} (hs : Named s) : (b.change i s).Sound where
  named s' hs' := by
    rcases List.mem_or_eq_of_mem_set hs' with hs' | rfl
    · exact h.named s' hs'
    · exact hs
  records := h.records
  calls := h.calls
  bindings := h.bindings
  standing := h.standing

/-- Nothing but the layout of the broker and what is remembered plays a part. -/
theorem of_layout (h : b.Sound) {w : HubWorld}
    (hl : w.site.store.layout = b.world.site.store.layout)
    (hr : w.site.records = b.world.site.records)
    (hs : w.site.subscribers = b.world.site.subscribers) : Sound { b with world := w } where
  named := by rw [hs]; exact h.named
  records := by rw [hr]; exact h.records
  calls := h.calls
  bindings := by rw [hl]; exact h.bindings
  standing := by rw [hl]; exact h.standing

theorem abandon (h : b.Sound) (n : Nat) : Sound { b with calls := b.calls.eraseIdx n } where
  named := h.named
  records := h.records
  calls c hc := h.calls c (List.mem_of_mem_eraseIdx hc)
  bindings := h.bindings
  standing topic id hs := by
    obtain ⟨ht, hn⟩ := h.standing topic id hs
    refine ⟨ht, fun hc => hn ?_⟩
    obtain ⟨c, hc, hqueue⟩ := List.mem_filterMap.1 hc
    exact List.mem_filterMap.2 ⟨c, List.mem_of_mem_eraseIdx hc, hqueue⟩

theorem other (h : b.Sound) {m : Hub.Move} (hm : ∀ x, m.extent.bindings x → x.Proper) :
    Sound { b with
      world := withStore b.world (m.step b.world.site.store), log := .passed m :: b.log } where
  named := h.named
  records := h.records
  calls := h.calls
  bindings x hx := ((Hub.Move.reaches b.world.site.store m).added x hx).elim (h.bindings x) (hm x)
  standing topic id hs := by
    obtain ⟨withdrawing, hsub, hnot⟩ := hs
    rcases subscribed_cons hsub with hn | ⟨hsub, hends⟩
    · cases hn
    · obtain ⟨ht, hwithdrawing⟩ := h.standing topic id ⟨withdrawing, hsub, hnot⟩
      obtain ⟨hx, hq⟩ := not_or.1 hends
      exact ⟨ht.reaches (Hub.Move.reaches b.world.site.store m) hx hq, hwithdrawing⟩

theorem step (h : b.Sound) (move : Move) : (b.step move).Sound := by
  cases move with
  | join t =>
    refine ⟨fun s hs => ?_, h.records, h.calls, h.bindings, h.standing⟩
    rcases List.mem_append.1 hs with hs | hs
    · exact h.named s hs
    · obtain rfl := List.mem_singleton.1 hs
      exact nofun
  | subscribe i topic =>
    rw [Bureau.step]
    split
    · exact h
    · rename_i s hs
      have hnamed := h.named s (List.mem_of_getElem? hs)
      dsimp only
      rw [hnamed.subscribe_eq topic]
      exact (h.change i (hnamed.subscribe topic)).start (properStep_bindQueue s topic) rfl
  | unsubscribe i topic =>
    rw [Bureau.step]
    split
    · exact h
    · rename_i s hs
      have hnamed := h.named s (List.mem_of_getElem? hs)
      exact (h.change i (hnamed.unsubscribe topic)).start (unsubscribe_steps s topic) rfl
  | listen i topic context =>
    rw [Bureau.step]
    split
    · exact h
    · rename_i s hs
      split
      · exact h
      · rename_i r hr
        unfold Subscriber.listen at hr
        split at hr
        · cases hr
        · rename_i queue hqueue
          cases hr
          obtain rfl := h.named s (List.mem_of_getElem? hs) topic queue hqueue
          exact h.start (properStep_bindQueue s topic) rfl
  | declareTopic a topic =>
    refine h.start (fun s hs => ?_) rfl
    obtain rfl := List.mem_singleton.1 hs
    exact properStep_topicExchange topic
  | removeTopic a topic =>
    refine h.start (fun s hs => ?_) rfl
    obtain rfl := List.mem_singleton.1 hs
    exact properStep_delete false topic
  | redeclare t =>
    refine h.start (fun s hs => ?_) rfl
    obtain ⟨d, hd, rfl⟩ := List.mem_map.1 hs
    rw [recordAt, List.getD_eq_getElem?_getD] at hd
    cases hr : b.world.site.records[t.record]? with
    | none =>
      rw [hr] at hd
      cases hd
    | some r =>
      rw [hr] at hd
      exact h.records r (List.mem_of_getElem? hr) d hd
  | arrange t steps hs => exact h.start hs rfl
  | work n opens => exact h.work n opens
  | abandon n => exact h.abandon n
  | other m hm => exact h.other hm
  | drift f hf =>
    have hsite := hf b.world
    exact h.of_layout (by rw [hsite]) (by rw [hsite]) (by rw [hsite])

end Sound

theorem Fresh.sound {w : HubWorld} (h : Fresh w) : Sound { world := w } where
  named s hs topic queue hqueue := by
    rw [Subscriber.queue?, h.subscribers s hs] at hqueue
    cases hqueue
  records r hr d hd := by
    rw [h.records r hr] at hd
    cases hd
  calls _ hc := absurd hc List.not_mem_nil
  bindings x hx := by
    have hx : x ∈ w.site.store.bindings := hx
    rw [h.bindings] at hx
    cases hx
  standing topic id hs := by
    obtain ⟨withdrawing, ⟨later, earlier, hlog, -⟩, -⟩ := hs
    exact absurd hlog.symm (List.append_ne_nil_of_right_ne_nil later (List.cons_ne_nil _ _))

/-- However the calls of publishers and subscribers take turns, bindings stay proper and queues take
the topics for which subscriptions stand. -/
theorem sound_run {w : HubWorld} (h : Fresh w) (moves : List Move) : (run w moves).Sound :=
  List.foldlRecOn moves step h.sound fun _ hb move _ => hb.step move

end Bureau

end Reconnect.Rehearsal
