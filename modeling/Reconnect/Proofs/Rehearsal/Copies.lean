import Reconnect.Proofs.Lists
import Reconnect.Proofs.Rehearsal.Hub
import Reconnect.Proofs.Rehearsal.Layout

/-!
# The copies of a message

A broker holds a message where it waits in a queue and where it lies in the stream of a consumer
(`Hub.held`). Handing out moves messages from a queue into the streams of its consumers and loses
none of them (`Hub.held_dispatch`). So a message that is published adds one copy to every queue that
the broker routes to, and changes nothing else (`Receives`, `posted_request`).
-/

namespace Reconnect.Rehearsal

open Broker
open scoped List

/-! ## Handing out -/

namespace Queue

variable {closes : Nat → Feed → Bool}

/-- What is handed out and what is left is what has waited. -/
theorem handOut_messages (n : Nat) (q : Queue) :
    (q.handOut closes n).2.map Prod.snd ++ (q.handOut closes n).1.messages = q.messages := by
  fun_induction handOut closes n q with
  | case1 n q hm => rfl
  | case2 n q hm hf => rfl
  | case3 n q m rest f fs hm hf i hi feed hc ih => exact ih
  | case4 n q m rest f fs hm hf i hi feed hc r ih =>
    rw [hm]
    exact congrArg (m :: ·) ih

theorem shape_handOut (n : Nat) (q : Queue) : (q.handOut closes n).1.shape = q.shape := by
  fun_induction handOut closes n q with
  | case1 n q hm => rfl
  | case2 n q hm hf => rfl
  | case3 n q m rest f fs hm hf i hi feed hc ih => exact ih
  | case4 n q m rest f fs hm hf i hi feed hc r ih => exact ih

/-- Messages are handed to consumers of the queue. -/
theorem mem_feeds_of_mem_handOut {n : Nat} {q : Queue} {e : Feed × Message}
    (he : e ∈ (q.handOut closes n).2) : e.1 ∈ q.feeds := by
  fun_induction handOut closes n q with
  | case1 n q hm => cases he
  | case2 n q hm hf => cases he
  | case3 n q m rest f fs hm hf i hi feed hc ih =>
    rw [hf]
    exact List.mem_of_mem_eraseIdx (ih he)
  | case4 n q m rest f fs hm hf i hi feed hc r ih =>
    rcases List.mem_cons.1 he with rfl | he
    · rw [hf]
      exact List.getElem_mem hi
    · exact ih he

end Queue

namespace Hub

variable {h h' : Hub} {queue : String} {stream : Nat}

/-- The messages from a queue that lie in a stream. -/
def inStream (h : Hub) (queue : String) (stream : Nat) : List Message :=
  (((h.streams.get? stream).getD []).filter (·.queue == queue)).map Delivery.message

/-- The messages from a queue that lie in the streams. -/
def handedOut (h : Hub) (queue : String) : List Message :=
  h.streams.keys.eraseDups.flatMap (h.inStream queue)

/-- The copies that a broker holds of the messages of a queue. -/
def held (h : Hub) (queue : String) : List Message := h.waiting queue ++ h.handedOut queue

theorem keys_deliver (streams : Table Nat (List Delivery)) (handed : List (Feed × Message)) :
    (deliver queue streams handed).keys = streams.keys := by
  induction handed generalizing streams with
  | nil => rfl
  | cons e rest ih => exact (ih _).trans (Table.keys_modify streams _ _)

/-- What is handed out from a queue goes behind what lies in the streams. -/
theorem inStream_deliver (h : Hub) (queues : Table String Queue) (handed : List (Feed × Message))
    (hs : stream ∈ h.streams.keys) :
    inStream { h with queues, streams := deliver queue h.streams handed } queue stream =
      h.inStream queue stream ++ (handed.filter (·.1.stream == stream)).map Prod.snd := by
  obtain ⟨ds, hds⟩ := Option.isSome_iff_exists.1 ((Table.mem_keys_iff _ _).1 hs)
  simp only [inStream, get?_deliver, hds, Option.map_some, Option.getD_some,
    List.filter_append, List.map_append]
  congr 1
  simp [List.filter_map, Function.comp_def]

/-- Handing out from one queue adds nothing from another queue to a stream. -/
theorem inStream_deliver_of_ne {other : String} (hne : other ≠ queue) (h : Hub)
    (queues : Table String Queue) (handed : List (Feed × Message)) (stream : Nat) :
    inStream { h with queues, streams := deliver queue h.streams handed } other stream =
      h.inStream other stream := by
  simp only [inStream, get?_deliver]
  cases h.streams.get? stream with
  | none => rfl
  | some ds => simp [List.filter_append, List.filter_map, Function.comp_def, Ne.symm hne]

/-- Nor does it add anything to a stream of no consumer that is handed something. -/
theorem inStream_deliver_of_unfed (h : Hub) (queues : Table String Queue) (other : String)
    {handed : List (Feed × Message)} (hs : ∀ e ∈ handed, e.1.stream ≠ stream) :
    inStream { h with queues, streams := deliver queue h.streams handed } other stream =
      h.inStream other stream := by
  have hnone : handed.filter (·.1.stream == stream) = [] :=
    List.filter_eq_nil_iff.2 fun e he => by simpa using hs e he
  simp [inStream, get?_deliver, hnone]

/-- What is handed out lies in the streams. -/
theorem handedOut_deliver (h : Hub) (queues : Table String Queue) {handed : List (Feed × Message)}
    (hs : ∀ e ∈ handed, e.1.stream ∈ h.streams.keys) :
    (handedOut { h with queues, streams := deliver queue h.streams handed } queue).Perm
      (h.handedOut queue ++ handed.map Prod.snd) := by
  have hsorted := perm_flatMap_filter (fun e : Feed × Message => e.1.stream)
    (nodup_eraseDups h.streams.keys) fun e he => List.mem_eraseDups.2 (hs e he)
  have hall : handedOut { h with queues, streams := deliver queue h.streams handed } queue =
      h.streams.keys.eraseDups.flatMap fun stream => h.inStream queue stream ++
        (handed.filter (·.1.stream == stream)).map Prod.snd := by
    rw [handedOut, keys_deliver]
    exact List.flatMap_congr fun stream hn =>
      h.inStream_deliver queues handed (List.mem_eraseDups.1 hn)
  rw [hall]
  refine (List.flatMap_append_perm _ _ _).symm.trans (List.Perm.append_left _ ?_)
  rw [← List.map_flatMap]
  exact hsorted.map Prod.snd

/-- Handing out loses no copy and makes none. -/
theorem held_dispatch (h : Hub) (queue : String) :
    ((h.dispatch queue).held queue).Perm (h.held queue) := by
  cases hq : h.queues.get? queue with
  | none => rw [dispatch, hq]
  | some q =>
    have hmessages : (h.handOut q).2.map Prod.snd ++ (h.handOut q).1.messages = q.messages :=
      Queue.handOut_messages 0 _
    have hlive : ∀ e ∈ (h.handOut q).2, e.1.stream ∈ h.streams.keys := by
      intro e he
      rw [Table.mem_keys_iff]
      exact (List.mem_filter.1 (Queue.mem_feeds_of_mem_handOut he)).2
    rw [dispatch_of_get? hq]
    generalize h.handOut q = r at hmessages hlive ⊢
    obtain ⟨q', handed⟩ := r
    have hwaiting : h.waiting queue = handed.map Prod.snd ++ q'.messages := by
      rw [waiting, hq, hmessages]
      rfl
    rw [held, held, hwaiting, waiting, Table.get?_insert, if_pos rfl]
    calc q'.messages ++ handedOut _ queue
      _ ~ q'.messages ++ (h.handedOut queue ++ handed.map Prod.snd) :=
        (handedOut_deliver h _ hlive).append_left _
      _ ~ q'.messages ++ (handed.map Prod.snd ++ h.handedOut queue) :=
        List.perm_append_comm.append_left _
      _ ~ handed.map Prod.snd ++ (q'.messages ++ h.handedOut queue) :=
        List.perm_append_comm_assoc _ _ _
      _ ~ (handed.map Prod.snd ++ q'.messages) ++ h.handedOut queue := by
        rw [List.append_assoc]

end Hub

/-! ## Receiving -/

/-- Two brokers that differ in some queues only, and in what their consumers have been handed. -/
structure Confined (h h' : Hub) (targets : List String) : Prop where
  /-- What is handed out goes to consumers of its queue. -/
  consumers : ∀ queue stream, h'.inStream queue stream ≠ h.inStream queue stream →
    ∃ q feed, h.queues.get? queue = some q ∧ feed ∈ q.feeds ∧ feed.stream = stream
  /-- The other queues are left alone. -/
  spared : ∀ queue, queue ∉ targets → h'.queues.get? queue = h.queues.get? queue ∧
    ∀ stream, h'.inStream queue stream = h.inStream queue stream
  /-- The exchanges, the bindings and the options of the queues are left alone. -/
  layout : h'.layout = h.layout
  streams : h'.streams.keys = h.streams.keys

/-- Two brokers, the second of which has received a message in some queues. -/
structure Receives (h h' : Hub) (targets : List String) (m : Message) : Prop
    extends Confined h h' targets where
  /-- Each of the queues that is there has got one copy. -/
  received : ∀ queue ∈ targets, h.queues.contains queue = true →
    h'.held queue ~ m :: h.held queue

section Receiving

variable {h hm h' : Hub} {queue : String} {rest targets : List String} {m : Message}

namespace Confined

theorem refl (h : Hub) (targets : List String) : Confined h h targets where
  consumers _ _ hne := absurd rfl hne
  spared _ _ := ⟨rfl, fun _ => rfl⟩
  layout := rfl
  streams := rfl

theorem held_eq (hc : Confined h h' targets) (hn : queue ∉ targets) :
    h'.held queue = h.held queue := by
  obtain ⟨hq, hs⟩ := hc.spared queue hn
  simp only [Hub.held, Hub.waiting, Hub.handedOut, hq, hc.streams, funext hs]

/-- Handing out concerns one queue. -/
theorem dispatch (h : Hub) (queue : String) : Confined h (h.dispatch queue) [queue] := by
  cases hq : h.queues.get? queue with
  | none =>
    rw [Hub.dispatch, hq]
    exact refl h [queue]
  | some q =>
    have hshape : (h.handOut q).1.shape = q.shape := Queue.shape_handOut 0 _
    have hfeeds : ∀ e ∈ (h.handOut q).2, e.1 ∈ q.feeds := fun e he =>
      (List.mem_filter.1 (Queue.mem_feeds_of_mem_handOut he)).1
    rw [Hub.dispatch_of_get? hq]
    refine ⟨fun other stream hne => ?_, fun other hne => ?_, ?_, Hub.keys_deliver _ _⟩
    · obtain rfl : other = queue :=
        Decidable.not_not.1 fun ho => hne (h.inStream_deliver_of_ne ho _ _ stream)
      refine ⟨q, ?_⟩
      by_contra hno
      refine hne (h.inStream_deliver_of_unfed _ other fun e he hs => hno ?_)
      exact ⟨e.1, hq, hfeeds e he, hs⟩
    · rw [List.mem_singleton] at hne
      exact ⟨by rw [Table.get?_insert, if_neg hne], h.inStream_deliver_of_ne hne _ _⟩
    · refine Layout.ext rfl (funext fun other => ?_) rfl
      simp only [Hub.layout, Table.get?_insert]
      split
      case isTrue he => rw [he, hq, Option.map_some, Option.map_some, hshape]
      case isFalse => rfl

/-- Changing a queue first makes no difference, if it keeps its options and its consumers. -/
theorem of_modify (put : Queue → Queue) (hf : ∀ q, (put q).feeds = q.feeds)
    (hs : ∀ q, (put q).shape = q.shape)
    (hc : Confined { h with queues := h.queues.modify queue put } h' [queue]) :
    Confined h h' [queue] where
  consumers other stream hne := by
    obtain ⟨q, feed, hq, hfeed, hstream⟩ := hc.consumers other stream hne
    rw [Table.get?_modify] at hq
    split at hq
    case isTrue =>
      obtain ⟨q', hq', rfl⟩ := Option.map_eq_some_iff.1 hq
      exact ⟨q', feed, hq', hf q' ▸ hfeed, hstream⟩
    case isFalse => exact ⟨q, feed, hq, hfeed, hstream⟩
  spared other hne := by
    obtain ⟨hq, hstreams⟩ := hc.spared other hne
    rw [List.mem_singleton] at hne
    rw [Table.get?_modify, if_neg hne] at hq
    exact ⟨hq, hstreams⟩
  layout := by
    rw [hc.layout]
    refine Layout.ext rfl (funext fun other => ?_) rfl
    simp only [Hub.layout, Table.get?_modify]
    split
    case isTrue => simp only [Option.map_map, Function.comp_def, hs]
    case isFalse => rfl
  streams := hc.streams

/-- Changes in one queue and then in others. -/
theorem cons (h₁ : Confined h hm [queue]) (h₂ : Confined hm h' rest) (hn : queue ∉ rest) :
    Confined h h' (queue :: rest) where
  consumers other stream hne := by
    by_cases he : hm.inStream other stream = h.inStream other stream
    case neg => exact h₁.consumers other stream he
    rw [← he] at hne
    obtain ⟨q, feed, hq, hfeed⟩ := h₂.consumers other stream hne
    -- what changes in the second place belongs to one of the others
    have ho : other ∉ [queue] := by
      rw [List.mem_singleton]
      rintro rfl
      exact hne ((h₂.spared other hn).2 stream)
    exact ⟨q, feed, (h₁.spared other ho).1 ▸ hq, hfeed⟩
  spared other hne := by
    rw [List.mem_cons, not_or] at hne
    obtain ⟨hq₁, hs₁⟩ := h₁.spared other (by simpa using hne.1)
    obtain ⟨hq₂, hs₂⟩ := h₂.spared other hne.2
    exact ⟨hq₂.trans hq₁, fun stream => (hs₂ stream).trans (hs₁ stream)⟩
  layout := h₂.layout.trans h₁.layout
  streams := h₂.streams.trans h₁.streams

end Confined

/-- A queue that is there, is changed so that one message more waits in it, and hands out then has
got one copy. -/
theorem receives_change (h : Hub) (queue : String) (put : Queue → Queue)
    (hm : ∀ q, (put q).messages ~ m :: q.messages) (hf : ∀ q, (put q).feeds = q.feeds)
    (hs : ∀ q, (put q).shape = q.shape) :
    Receives h (Hub.dispatch { h with queues := h.queues.modify queue put } queue) [queue] m := by
  refine ⟨.of_modify put hf hs (.dispatch _ queue), fun other ho hc => ?_⟩
  obtain rfl := List.mem_singleton.1 ho
  obtain ⟨q, hq⟩ := Option.isSome_iff_exists.1 hc
  refine (Hub.held_dispatch _ other).trans ?_
  have hwaiting : h.waiting other = q.messages := by
    rw [Hub.waiting, hq]
    rfl
  rw [Hub.held, Hub.held, hwaiting, Hub.waiting, Table.get?_modify, if_pos rfl, hq]
  exact (hm q).append_right (h.handedOut other)

/-- A queue that is there gets the copy that is enqueued. -/
theorem receives_enqueue (h : Hub) (queue : String) (m : Message) :
    Receives h (h.enqueue queue m) [queue] m :=
  receives_change h queue (fun q => { q with messages := q.messages ++ [m] })
    (fun _ => List.perm_append_singleton m _) (fun _ => rfl) fun _ => rfl

/-- A queue that is there gets back what is put back to it, with the mark of a redelivery. -/
theorem receives_requeue (h : Hub) (d : Delivery) :
    Receives h (h.requeue d) [d.queue] d.message.again :=
  receives_change h d.queue (fun q => { q with messages := d.message.again :: q.messages })
    (fun _ => List.Perm.refl _) (fun _ => rfl) fun _ => rfl

/-- A message goes to one queue and then to others. -/
theorem Receives.cons (h₁ : Receives h hm [queue] m) (h₂ : Receives hm h' rest m)
    (hn : queue ∉ rest) : Receives h h' (queue :: rest) m := by
  refine ⟨h₁.toConfined.cons h₂.toConfined hn, fun other ho hc => ?_⟩
  by_cases he : other = queue
  · rw [he] at hc ⊢
    rw [h₂.held_eq hn]
    exact h₁.received queue List.mem_cons_self hc
  · have hspared : other ∉ [queue] := by simpa using he
    rw [← h₁.held_eq hspared]
    refine h₂.received other ((List.mem_cons.1 ho).resolve_left he) ?_
    rwa [Table.contains, (h₁.spared other hspared).1]

/-- A message is enqueued once in each of some queues. -/
theorem receives_foldl (h : Hub) (m : Message) (hn : targets.Nodup) :
    Receives h (targets.foldl (·.enqueue · m) h) targets m := by
  induction targets generalizing h with
  | nil => exact ⟨.refl h [], nofun⟩
  | cons queue rest ih =>
    rw [List.nodup_cons] at hn
    exact (receives_enqueue h queue m).cons (ih (h.enqueue queue m) hn.2) hn.1

end Receiving

/-! ## Publishing -/

/-- However many bindings of a queue take a routing key, the queue is routed to once. -/
theorem nodup_route {h : Hub} {exchange key : String} {targets : List String}
    (hr : h.route exchange key = .ok targets) : targets.Nodup := by
  unfold Hub.route at hr
  split at hr
  · cases hr
    split
    · exact List.pairwise_singleton _ key
    · exact List.nodup_nil
  · split at hr
    · cases hr
    · cases hr
      exact nodup_eraseDups _

/-- Two brokers, the second of which has published a message: each of the queues that the first one
routes to has received it. -/
def Publishes (exchange key : String) (m : Message) (h h' : Hub) : Prop :=
  ∃ targets, h.route exchange key = .ok targets ∧ targets ≠ [] ∧ Receives h h' targets m

/-- How a broker answers the request to publish a message on a channel. -/
inductive Posted (h : Hub) (c : Nat) (exchange key : String) (m : Message) :
    Hub × Except Fault (Broker.Reply Nat) → Prop
  | failed {f : Fault} (hf : h.fault? c = some f ∨ h.route exchange key = .error f) :
      Posted h c exchange key m (h, .error f)
  | returned (hr : h.route exchange key = .ok []) :
      Posted h c exchange key m (h, .ok (.confirmed .returned))
  | published {h' : Hub} (hp : Publishes exchange key m h h') :
      Posted h c exchange key m (h', .ok (.confirmed .accepted))

/-- A message is published, or the request changes nothing: because of the network, because there is
no such exchange, or because the broker routes to no queue. -/
theorem posted_request (h : Hub) (c : Nat) (exchange key : String) (body : Bytes)
    (headers : Headers) :
    Posted h c exchange key { body, headers }
      (request h c (.publish exchange key body headers)) := by
  rcases h.fault?_cases c with hf | hf
  case inr =>
    simp only [request, Channels.publish, Hub.serve_of_fault hf]
    exact .failed (.inl hf)
  simp only [request, Channels.publish, Hub.serve_of_up hf]
  unfold Hub.publish
  split
  case h_1 f hr => exact .failed (.inr hr)
  case h_2 hr => exact .returned hr
  case h_3 targets hne hr =>
    exact .published ⟨targets, hr, hne, receives_foldl h _ (nodup_route hr)⟩

end Reconnect.Rehearsal
