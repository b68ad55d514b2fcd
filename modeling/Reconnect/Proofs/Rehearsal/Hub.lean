import Reconnect.Proofs.Table
import Reconnect.Rehearsal.Hub

/-!
# What a broker does with one queue and its only consumer

Before a queue has a consumer, messages wait in it in order (`Hub.Unfed`). Once it has one whose
stream is held, nothing waits in the queue: whatever is enqueued or put back goes to the end of that
stream at once (`Hub.Fed`). The other queues and streams play no part.
-/

namespace Reconnect

namespace Broker.Message

/-- A message that has been handed out before. -/
def again (m : Message) : Message := { m with redelivered := true }

/-- A message without the mark of a redelivery. -/
def plain (m : Message) : Message := { m with redelivered := false }

@[simp] theorem again_id? (m : Message) : m.again.id? = m.id? := rfl

@[simp] theorem again_plain (m : Message) : m.again.plain = m.plain := rfl

end Broker.Message

namespace Rehearsal

open Broker

namespace Queue

variable {closes : Nat → Feed → Bool}

theorem handOut_of_no_feeds (n : Nat) {q : Queue} (hf : q.feeds = []) :
    q.handOut closes n = (q, []) := by
  obtain ⟨durable, exclusive, messages, feeds, turn⟩ := q
  cases hf
  rw [handOut]
  cases messages <;> rfl

/-- The only consumer of a queue is handed all that waits there. -/
theorem handOut_of_feed {feed : Feed} (hc : ∀ n, closes n feed = false)
    (messages : List Message) (n : Nat) (q : Queue) (hm : q.messages = messages)
    (hf : q.feeds = [feed]) :
    (q.handOut closes n).1.messages = [] ∧ (q.handOut closes n).1.feeds = [feed] ∧
      (q.handOut closes n).2 = messages.map (feed, ·) := by
  induction messages generalizing n q with
  | nil =>
    obtain ⟨durable, exclusive, messages, feeds, turn⟩ := q
    cases hm
    rw [handOut]
    exact ⟨rfl, hf, rfl⟩
  | cons m rest ih =>
    obtain ⟨durable, exclusive, messages, feeds, turn⟩ := q
    cases hm
    cases hf
    obtain ⟨hm', hf', hr⟩ := ih (n + 1)
      { durable, exclusive, messages := rest, feeds := [feed], turn := turn + 1 } rfl rfl
    -- with one consumer the turn is always its own
    have hi : turn.toNat % [feed].length = 0 := Nat.mod_one _
    rw [handOut]
    simp only [hi, List.getElem_cons_zero, hc, Bool.false_eq_true, if_false, List.map_cons]
    exact ⟨hm', hf', congrArg ((feed, m) :: ·) hr⟩

end Queue

namespace Hub

variable {h : Hub} {queue : String} {feed : Feed} {buffer waiting : List Message}

/-- Messages as they are handed out from a queue. -/
def handed (queue : String) (messages : List Message) : List Delivery := messages.map (⟨queue, ·⟩)

/-- A queue without a consumer whose stream is held, and what waits there. -/
def Unfed (h : Hub) (queue : String) (waiting : List Message) : Prop :=
  ∃ q, h.queues.get? queue = some q ∧ q.messages = waiting ∧
    ∀ f ∈ q.feeds, h.isLive f = false ∧ f.stream ≤ h.opened

/-- A queue with one consumer, and what has not been received from the stream of that. -/
def Fed (h : Hub) (queue : String) (feed : Feed) (buffer : List Message) : Prop :=
  (∃ q, h.queues.get? queue = some q ∧ q.messages = [] ∧ q.feeds = [feed]) ∧
    h.streams.get? feed.stream = some (handed queue buffer)

/-- Two brokers that agree on all but their queues and their streams. -/
structure Alike (h h' : Hub) : Prop where
  network : h'.network = h.network
  settled : h'.settled = h.settled
  failingSettlements : h'.failingSettlements = h.failingSettlements
  closedChannels : h'.closedChannels = h.closedChannels

theorem isLive_of_get? {ds : List Delivery} (hs : h.streams.get? feed.stream = some ds) :
    h.isLive feed = true := by
  rw [isLive, Table.contains, hs]
  rfl

/-! ## Handing out -/

/-- Deliveries go to the ends of the streams of their consumers. -/
theorem get?_deliver (streams : Table Nat (List Delivery)) (stream : Nat)
    (handed : List (Feed × Message)) :
    (deliver queue streams handed).get? stream = (streams.get? stream).map
      (· ++ (handed.filter (·.1.stream == stream)).map fun e => ⟨queue, e.2⟩) := by
  induction handed generalizing streams with
  | nil => simp [deliver]
  | cons e rest ih =>
    have hrest := ih (streams.modify e.1.stream (· ++ [⟨queue, e.2⟩]))
    rw [Table.get?_modify] at hrest
    refine hrest.trans ?_
    by_cases hs : stream = e.1.stream
    · simp [hs, Function.comp_def]
    · rw [if_neg hs, List.filter_cons_of_neg (by simpa using Ne.symm hs)]

theorem get?_deliver_feed {streams : Table Nat (List Delivery)} (messages : List Message)
    (hs : streams.get? feed.stream = some (handed queue buffer)) :
    (deliver queue streams (messages.map (feed, ·))).get? feed.stream =
      some (handed queue (buffer ++ messages)) := by
  have hall : (messages.map (feed, ·)).filter (·.1.stream == feed.stream) =
      messages.map (feed, ·) := by
    rw [List.filter_eq_self]
    simp
  rw [get?_deliver, hs, hall]
  simp [handed, Function.comp_def]

/-- What comes of a queue when what waits there is handed out. -/
def handOut (h : Hub) (q : Queue) : Queue × List (Feed × Message) :=
  Queue.handOut (fun _ f => !h.isLive f) 0 { q with feeds := q.feeds.filter h.isLive }

theorem dispatch_of_get? {q : Queue} (hq : h.queues.get? queue = some q) :
    h.dispatch queue =
      { h with
        queues := h.queues.insert queue (h.handOut q).1
        streams := deliver queue h.streams (h.handOut q).2 } := by
  rw [dispatch, hq]
  rfl

theorem dispatch_alike (h : Hub) (name : String) : h.Alike (h.dispatch name) := by
  rw [dispatch]
  split <;> exact ⟨rfl, rfl, rfl, rfl⟩

/-- Changing the queues first makes no difference. -/
theorem dispatch_queues_alike (h : Hub) (queues : Table String Queue) (name : String) :
    h.Alike (dispatch { h with queues } name) := by
  have halike := dispatch_alike { h with queues } name
  exact ⟨halike.network, halike.settled, halike.failingSettlements, halike.closedChannels⟩

theorem enqueue_alike (h : Hub) (name : String) (m : Message) : h.Alike (h.enqueue name m) :=
  dispatch_queues_alike h _ name

theorem requeue_alike (h : Hub) (d : Delivery) : h.Alike (h.requeue d) :=
  dispatch_queues_alike h _ d.queue

/-- What waits in a queue goes to the only consumer whose stream is held. -/
theorem dispatch_fed {q : Queue} (hq : h.queues.get? queue = some q)
    (hf : q.feeds.filter h.isLive = [feed])
    (hs : h.streams.get? feed.stream = some (handed queue buffer)) :
    (h.dispatch queue).Fed queue feed (buffer ++ q.messages) := by
  have hlive := isLive_of_get? hs
  obtain ⟨hm, hf', hr⟩ : (h.handOut q).1.messages = [] ∧ (h.handOut q).1.feeds = [feed] ∧
      (h.handOut q).2 = q.messages.map (feed, ·) := by
    refine Queue.handOut_of_feed (fun _ => ?_) q.messages 0 _ rfl hf
    rw [hlive]
    rfl
  rw [dispatch_of_get? hq]
  refine ⟨⟨_, ?_, hm, hf'⟩, ?_⟩
  · rw [Table.get?_insert, if_pos rfl]
  · rw [hr]
    exact get?_deliver_feed q.messages hs

/-- What waits in a queue stays there if no stream of a consumer is held. -/
theorem dispatch_unfed {q : Queue} (hq : h.queues.get? queue = some q)
    (hf : q.feeds.filter h.isLive = []) : (h.dispatch queue).Unfed queue q.messages := by
  rw [dispatch_of_get? hq, handOut, hf, Queue.handOut_of_no_feeds 0 rfl]
  refine ⟨{ q with feeds := [] }, ?_, rfl, ?_⟩
  · rw [Table.get?_insert, if_pos rfl]
  · rintro f ⟨⟩

theorem Unfed.enqueue (hu : h.Unfed queue waiting) (m : Message) :
    (h.enqueue queue m).Unfed queue (waiting ++ [m]) := by
  obtain ⟨q, hq, rfl, hdead⟩ := hu
  let queues := h.queues.modify queue fun q => { q with messages := q.messages ++ [m] }
  have hq' : queues.get? queue = some { q with messages := q.messages ++ [m] } := by
    rw [Table.get?_modify, if_pos rfl, hq]
    rfl
  -- no stream of a consumer is held, so the new message waits with the others
  apply dispatch_unfed (h := { h with queues }) hq'
  rw [List.filter_eq_nil_iff]
  intro f hf hl
  rw [← Bool.not_eq_false] at hl
  exact hl (hdead f hf).1

/-- Whatever is put into a queue with one consumer goes to the end of the stream of that. -/
theorem Fed.change (hf : h.Fed queue feed buffer) (m : Message) {put : Queue → Queue}
    (hm : ∀ q, q.messages = [] → (put q).messages = [m]) (hp : ∀ q, (put q).feeds = q.feeds) :
    (dispatch { h with queues := h.queues.modify queue put } queue).Fed queue feed
      (buffer ++ [m]) := by
  obtain ⟨⟨q, hq, hnone, hone⟩, hs⟩ := hf
  have hq' : (h.queues.modify queue put).get? queue = some (put q) := by
    rw [Table.get?_modify, if_pos rfl, hq]
    rfl
  -- the only consumer is still the only one, and its stream is held
  have hlive : (put q).feeds.filter h.isLive = [feed] := by
    rw [hp, hone]
    exact List.filter_cons_of_pos (isLive_of_get? hs)
  have hfed := dispatch_fed (h := { h with queues := h.queues.modify queue put }) hq' hlive hs
  rwa [hm q hnone] at hfed

theorem Fed.enqueue (hf : h.Fed queue feed buffer) (m : Message) :
    (h.enqueue queue m).Fed queue feed (buffer ++ [m]) :=
  hf.change m (fun q hq => by rw [hq]; rfl) fun _ => rfl

theorem Fed.requeue (hf : h.Fed queue feed buffer) (m : Message) :
    (h.requeue ⟨queue, m⟩).Fed queue feed (buffer ++ [m.again]) :=
  hf.change m.again (fun q hq => by rw [hq]; rfl) fun _ => rfl

/-! ## Consuming -/

/-- The first consumer of a queue is handed all that has waited there. -/
theorem Unfed.consume (hu : h.Unfed queue waiting) (c : Nat) :
    (h.consume c queue).2 = .ok (h.opened + 1) ∧
      (h.consume c queue).1.Fed queue ⟨c, h.opened + 1⟩ waiting ∧
      h.Alike (h.consume c queue).1 := by
  obtain ⟨q, hq, rfl, hdead⟩ := hu
  have hc : h.queues.contains queue = true := by
    rw [Table.contains, hq]
    rfl
  let feed : Feed := ⟨c, h.opened + 1⟩
  -- the broker with the new consumer and its empty stream, before anything is handed out
  let h' : Hub := { h with
    opened := h.opened + 1
    streams := h.streams.insert (h.opened + 1) []
    queues := h.queues.modify queue fun q => { q with feeds := q.feeds ++ [feed] } }
  have hq' : h'.queues.get? queue = some { q with feeds := q.feeds ++ [feed] } := by
    rw [Table.get?_modify, if_pos rfl, hq]
    rfl
  have hs : h'.streams.get? feed.stream = some [] := by
    rw [Table.get?_insert, if_pos rfl]
  -- the streams of former consumers are not among the streams that are held
  have hlive : (q.feeds ++ [feed]).filter h'.isLive = [feed] := by
    rw [List.filter_append, List.filter_cons_of_pos (isLive_of_get? hs), List.filter_nil]
    suffices hnone : q.feeds.filter h'.isLive = [] by rw [hnone]; rfl
    rw [List.filter_eq_nil_iff]
    intro f hf hl
    obtain ⟨hd, hle⟩ := hdead f hf
    have hne : f.stream ≠ h.opened + 1 := Nat.ne_of_lt (Nat.lt_succ_of_le hle)
    rw [isLive, Table.contains, Table.get?_insert, if_neg hne] at hl
    rw [isLive, Table.contains, hl] at hd
    cases hd
  rw [Hub.consume]
  rw [if_pos hc]
  have hfed : (h'.dispatch queue).Fed queue feed ([] ++ q.messages) :=
    dispatch_fed (q := { q with feeds := q.feeds ++ [feed] }) hq' hlive hs
  have halike := dispatch_alike h' queue
  refine ⟨rfl, hfed, ?_⟩
  exact ⟨halike.network, halike.settled, halike.failingSettlements, halike.closedChannels⟩

theorem Fed.isFed (hf : h.Fed queue feed buffer) : h.isFed feed.stream = true := by
  obtain ⟨⟨q, hq, -, hone⟩, -⟩ := hf
  rw [Hub.isFed, List.any_eq_true]
  refine ⟨q, Table.mem_values_of_get? hq, ?_⟩
  rw [hone]
  simp

theorem Fed.take_cons {m : Message} (hf : h.Fed queue feed (m :: buffer)) :
    (h.take feed.stream).2 = .delivery ⟨queue, m⟩ ∧
      (h.take feed.stream).1.Fed queue feed buffer ∧ h.Alike (h.take feed.stream).1 := by
  obtain ⟨hq, hs⟩ := hf
  have ht : h.take feed.stream =
      ({ h with streams := h.streams.insert feed.stream (handed queue buffer) },
        .delivery ⟨queue, m⟩) := by
    rw [take, hs]
    rfl
  rw [ht]
  refine ⟨rfl, ⟨hq, ?_⟩, ⟨rfl, rfl, rfl, rfl⟩⟩
  rw [Table.get?_insert, if_pos rfl]

theorem Fed.take_nil (hf : h.Fed queue feed []) : h.take feed.stream = (h, .pending) := by
  rw [take]
  rw [hf.2, hf.isFed]
  rfl

theorem Fed.waiting_eq_nil (hf : h.Fed queue feed buffer) : h.waiting queue = [] := by
  obtain ⟨⟨q, hq, hnone, -⟩, -⟩ := hf
  rw [Hub.waiting, hq, Option.map_some, Option.getD_some, hnone]

/-! ## Settling -/

/-- A settlement that fails puts the message to the end of the stream. -/
theorem Fed.settle_failing (hf : h.Fed queue feed buffer) (hup : h.network.fault? = none)
    (hfail : 0 < h.failingSettlements) (m : Message) (v : Verdict) :
    (h.settle ⟨queue, m⟩ v).2 = .error .network ∧
      (h.settle ⟨queue, m⟩ v).1.Fed queue feed (buffer ++ [m.again]) ∧
      { h with failingSettlements := h.failingSettlements - 1 }.Alike
        (h.settle ⟨queue, m⟩ v).1 := by
  have hf' : { h with failingSettlements := h.failingSettlements - 1 }.Fed queue feed buffer := hf
  rw [settle]
  rw [hup]
  simp only [if_pos hfail]
  exact ⟨trivial, hf'.requeue m, requeue_alike _ ⟨queue, m⟩⟩

/-- A settlement with a verdict that puts nothing back is logged. -/
theorem settle_ok {d : Delivery} {v : Verdict} (hup : h.network.fault? = none)
    (hfail : h.failingSettlements = 0) (hv : v ≠ .requeue) :
    h.settle d v = ({ h with settled := h.settled ++ [⟨d.message, v⟩] }, .ok ()) := by
  rw [settle]
  rw [hup]
  simp only [hfail, Nat.lt_irrefl, if_false, if_neg hv]

end Hub

end Rehearsal

end Reconnect
