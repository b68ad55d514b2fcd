import Reconnect.Proofs.Lists
import Reconnect.Proofs.Rehearsal.Coherence

/-!
# Handing out in turn

A dispatch drops the consumers whose streams have been closed and then sends, one message after the
other, to the consumer whose turn it is. A send that finds a stream closed leaves the message where
it was and drops the consumer. So each send takes one message or one consumer (`Sends`), and the
sends of a dispatch (`SendsOn`) come to an end.

Nothing is lost, doubled or reordered on the way, whichever sends fail: what was handed out and what
is left are the messages that waited, and the consumers that are gone are those that were found
closed (`Dispatched`). A broker that dispatches hands out in this way (`Hub.Dispatches`), and the
messages arrive in the streams in the order in which they were handed out.
-/

namespace Reconnect.Rehearsal

open Broker
open scoped List

/-- A message is sent to a consumer, which fails if the stream of the consumer has been closed. -/
structure Sending where
  feed : Feed
  message : Message
  fails : Bool

namespace Queue

/-- Hands out to the consumers that are live. `closes` tells which sends fail, as for `handOut`. -/
def dispatch (live : Feed → Bool) (closes : Nat → Feed → Bool) (q : Queue) :
    Queue × List (Feed × Message) :=
  handOut closes 0 { q with feeds := q.feeds.filter live }

/-- The place of the consumer whose turn it is. -/
def place (q : Queue) : Nat := q.turn.toNat % q.feeds.length

/-- What one send makes of a queue. The turn passes on even if the send fails. -/
inductive Sends (q : Queue) : Sending → Queue → Prop
  | handed {m : Message} {rest : List Message} {f : Feed} (hm : q.messages = m :: rest)
      (hf : q.feeds[q.place]? = some f) :
      Sends q ⟨f, m, false⟩ { q with messages := rest, turn := q.turn + 1 }
  | refused {m : Message} {rest : List Message} {f : Feed} (hm : q.messages = m :: rest)
      (hf : q.feeds[q.place]? = some f) :
      Sends q ⟨f, m, true⟩ { q with feeds := q.feeds.eraseIdx q.place, turn := q.turn + 1 }

/-- What the sends from the one with number `n` on make of a queue. They go on until no message or
no consumer is left. -/
inductive SendsOn (closes : Nat → Feed → Bool) : Nat → Queue → List Sending → Queue → Prop
  | done {n : Nat} {q : Queue} (h : q.messages = [] ∨ q.feeds = []) : SendsOn closes n q [] q
  | next {n : Nat} {q q' left : Queue} {s : Sending} {sends : List Sending} (hs : q.Sends s q')
      (hf : s.fails = closes n s.feed) (hn : SendsOn closes (n + 1) q' sends left) :
      SendsOn closes n q (s :: sends) left

/-- What the sends have handed out. -/
def handedBy (sends : List Sending) : List (Feed × Message) :=
  (sends.filter (!·.fails)).map fun s => (s.feed, s.message)

/-- The consumers that the sends have found closed. -/
def refusedBy (sends : List Sending) : List Feed := (sends.filter (·.fails)).map Sending.feed

variable {closes : Nat → Feed → Bool} {live : Feed → Bool} {n : Nat} {q q' left : Queue}
  {s : Sending} {sends : List Sending}

/-! ## One send -/

/-- A send takes one message or one consumer. -/
theorem Sends.size (h : q.Sends s q') :
    q'.messages.length + q'.feeds.length + 1 = q.messages.length + q.feeds.length := by
  cases h with
  | handed hm hf =>
    rw [hm, List.length_cons]
    dsimp only
    omega
  | refused hm hf =>
    have herase := List.length_eraseIdx_add_one (List.getElem?_eq_some_iff.1 hf).1
    dsimp only
    omega

/-- A consumer is gone after a send exactly if the send has found it closed. -/
theorem Sends.feeds_perm (h : q.Sends s q') : refusedBy [s] ++ q'.feeds ~ q.feeds := by
  cases h with
  | handed hm hf => exact .refl _
  | refused hm hf =>
    obtain ⟨hplace, rfl⟩ := List.getElem?_eq_some_iff.1 hf
    exact List.getElem_cons_eraseIdx_perm hplace

/-- The consumers that are left keep their order. -/
theorem Sends.feeds_sublist (h : q.Sends s q') : q'.feeds <+ q.feeds := by
  cases h with
  | handed hm hf => exact .refl _
  | refused hm hf => exact List.eraseIdx_sublist _ _

theorem Sends.mem_feeds (h : q.Sends s q') : s.feed ∈ q.feeds := by
  cases h with
  | handed hm hf => exact List.mem_of_getElem? hf
  | refused hm hf => exact List.mem_of_getElem? hf

/-- The turn passes on with every send. -/
theorem Sends.turn (h : q.Sends s q') : q'.turn = q.turn + 1 := by
  cases h <;> rfl

theorem refusedBy_cons (s : Sending) (sends : List Sending) :
    refusedBy (s :: sends) = refusedBy [s] ++ refusedBy sends := by
  rw [refusedBy, ← List.singleton_append, List.filter_append, List.map_append]
  rfl

/-! ## The sends of a dispatch -/

/-- Handing out is to send until no message or no consumer is left. -/
theorem handOut_sendsOn (closes : Nat → Feed → Bool) (n : Nat) (q : Queue) :
    ∃ sends, SendsOn closes n q sends (q.handOut closes n).1 ∧
      (q.handOut closes n).2 = handedBy sends := by
  fun_induction handOut closes n q with
  | case1 n q hm => exact ⟨[], .done (.inl hm), rfl⟩
  | case2 n q hf hm => exact ⟨[], .done (.inr hf), rfl⟩
  | case3 n q m rest f fs hm hf i hi feed hc ih =>
    obtain ⟨sends, hsends, hhanded⟩ := ih
    have hplace : q.feeds[q.place]? = some feed := by
      rw [place, hf]
      exact List.getElem?_eq_getElem hi
    have hs := Sends.refused hm hplace
    rw [place, hf] at hs
    refine ⟨⟨feed, m, true⟩ :: sends, .next hs hc.symm hsends, ?_⟩
    rw [hhanded]
    rfl
  | case4 n q m rest f fs hm hf i hi feed hc r ih =>
    obtain ⟨sends, hsends, hhanded⟩ := ih
    have hplace : q.feeds[q.place]? = some feed := by
      rw [place, hf]
      exact List.getElem?_eq_getElem hi
    have hfails : false = closes n feed := (eq_false_of_ne_true hc).symm
    refine ⟨⟨feed, m, false⟩ :: sends, .next (.handed hm hplace) hfails hsends, ?_⟩
    rw [hhanded]
    rfl

namespace SendsOn

/-- Each send takes one message or one consumer, so there are no more sends than that. -/
theorem size (h : SendsOn closes n q sends left) :
    sends.length + (left.messages.length + left.feeds.length) =
      q.messages.length + q.feeds.length := by
  induction h with
  | done h => exact Nat.zero_add _
  | next hs hf hn ih =>
    have hsize := hs.size
    rw [List.length_cons]
    omega

/-- The consumers that the sends have found closed are gone, and no others. -/
theorem feeds_perm (h : SendsOn closes n q sends left) :
    refusedBy sends ++ left.feeds ~ q.feeds := by
  induction h with
  | done h => exact .refl _
  | next hs hf hn ih =>
    rw [refusedBy_cons, List.append_assoc]
    exact (ih.append_left _).trans hs.feeds_perm

theorem feeds_sublist (h : SendsOn closes n q sends left) : left.feeds <+ q.feeds := by
  induction h with
  | done h => exact .refl _
  | next hs hf hn ih => exact ih.trans hs.feeds_sublist

theorem mem_feeds (h : SendsOn closes n q sends left) : ∀ s ∈ sends, s.feed ∈ q.feeds := by
  induction h with
  | done h => exact List.forall_mem_nil _
  | next hs hf hn ih =>
    rw [List.forall_mem_cons]
    exact ⟨hs.mem_feeds, fun s hmem => hs.feeds_sublist.subset (ih s hmem)⟩

/-- The sends that fail are those that find the stream of their consumer closed. -/
theorem fails (h : SendsOn closes n q sends left) (i : Nat) :
    ∀ s, sends[i]? = some s → s.fails = closes (n + i) s.feed := by
  induction h generalizing i with
  | done h => simp
  | @next n q q' left s sends hs hf hn ih =>
    intro s' hs'
    cases i with
    | zero =>
      obtain rfl : s = s' := by simpa using hs'
      exact hf
    | succ i =>
      have hfails := ih i s' (by simpa using hs')
      rwa [Nat.add_assoc, Nat.add_comm 1 i] at hfails

theorem turn (h : SendsOn closes n q sends left) :
    left.turn = q.turn + UInt64.ofNat sends.length := by
  induction h with
  | done h => simp
  | next hs hf hn ih =>
    rw [ih, hs.turn, List.length_cons, UInt64.ofNat_add, UInt64.add_assoc,
      UInt64.add_comm (UInt64.ofNat _)]
    rfl

/-- As long as no send fails, the consumers take turns. The turn starts again from zero once it
exceeds its word. -/
theorem inTurn (h : SendsOn closes n q sends left) (hall : ∀ s ∈ sends, s.fails = false)
    (i : Nat) : ∀ s, sends[i]? = some s →
      q.feeds[(q.turn.toNat + i) % UInt64.size % q.feeds.length]? = some s.feed := by
  induction h generalizing i with
  | done h => simp
  | @next n q q' left s sends hs hf hn ih =>
    intro s' hs'
    rw [List.forall_mem_cons] at hall
    -- the send hands out, so the consumers of the next one are the same
    cases hs with
    | refused hm hplace => cases hall.1
    | @handed m rest f hm hplace =>
      cases i with
      | zero =>
        obtain rfl : ⟨f, m, false⟩ = s' := by simpa using hs'
        rw [Nat.add_zero, Nat.mod_eq_of_lt q.turn.toNat_lt_size]
        exact hplace
      | succ i =>
        have hnext := ih hall.2 i s' (by simpa using hs')
        have hturn : (q.turn + 1).toNat = (q.turn.toNat + 1) % UInt64.size := UInt64.toNat_add _ _
        dsimp only at hnext
        rwa [hturn, Nat.mod_add_mod, Nat.add_assoc, Nat.add_comm 1 i] at hnext

end SendsOn

/-! ## A dispatch -/

/-- What a dispatch of a queue leaves of it and hands out, by its sends. -/
structure Dispatched (live : Feed → Bool) (closes : Nat → Feed → Bool) (q : Queue)
    (sends : List Sending) (left : Queue) (out : List (Feed × Message)) : Prop where
  /-- Each send takes a message or a consumer. -/
  size : sends.length + (left.messages.length + left.feeds.length) =
    q.messages.length + (q.feeds.filter live).length
  fails : ∀ i s, sends[i]? = some s → s.fails = closes i s.feed
  handed : out = handedBy sends
  /-- No message is lost, doubled or out of order. -/
  messages : out.map Prod.snd ++ left.messages = q.messages
  exhausted : left.messages = [] ∨ left.feeds = []
  /-- The consumers that are gone were closed at the start or found closed by a send. -/
  gone : refusedBy sends ++ left.feeds ~ q.feeds.filter live
  order : left.feeds <+ q.feeds.filter live
  feeds : q.feeds.Nodup → left.feeds = q.feeds.filter fun f => live f && f ∉ refusedBy sends
  /-- Consumers none of which is closed take turns. -/
  inTurn : (∀ f ∈ q.feeds, live f = true ∧ ∀ n, closes n f = false) →
    ∀ i e, out[i]? = some e →
      q.feeds[(q.turn.toNat + i) % UInt64.size % q.feeds.length]? = some e.1
  turn : left.turn = q.turn + UInt64.ofNat sends.length
  shape : left.shape = q.shape

theorem handedBy_of_no_failure (hall : ∀ s ∈ sends, s.fails = false) :
    handedBy sends = sends.map fun s => (s.feed, s.message) := by
  rw [handedBy, List.filter_eq_self.2]
  intro s hs
  rw [hall s hs]
  rfl

/-- A dispatch hands out in this way, whichever consumers are closed at its start or found closed by
a send. -/
theorem dispatched (live : Feed → Bool) (closes : Nat → Feed → Bool) (q : Queue) :
    ∃ sends, Dispatched live closes q sends (q.dispatch live closes).1
      (q.dispatch live closes).2 := by
  obtain ⟨sends, hsends, hhanded⟩ :=
    handOut_sendsOn closes 0 { q with feeds := q.feeds.filter live }
  have hfails := hsends.fails
  simp only [Nat.zero_add] at hfails
  refine ⟨sends, hsends.size, hfails, hhanded, handOut_messages 0 _, handOut_exhausts 0 _,
    hsends.feeds_perm, hsends.feeds_sublist, ?feeds, ?inTurn, hsends.turn, shape_handOut 0 _⟩
  case feeds =>
    intro hn
    have hfilter := eq_filter_of_perm (hn.filter live) hsends.feeds_perm hsends.feeds_sublist
    rw [List.filter_filter] at hfilter
    refine hfilter.trans (List.filter_congr fun f _ => Bool.and_comm _ _)
  case inTurn =>
    intro hall i e he
    have hlive : q.feeds.filter live = q.feeds := List.filter_eq_self.2 fun f hf => (hall f hf).1
    -- each send goes to one of the consumers, none of which is closed
    have hnone : ∀ s ∈ sends, s.fails = false := by
      intro s hs
      obtain ⟨i, hi⟩ := List.getElem?_of_mem hs
      rw [hfails i s hi]
      exact (hall s.feed (hlive ▸ hsends.mem_feeds s hs)).2 i
    have hturns := hsends.inTurn hnone i
    rw [hlive] at hturns
    have hhanded' : (q.dispatch live closes).2 = handedBy sends := hhanded
    rw [hhanded', handedBy_of_no_failure hnone, List.getElem?_map,
      Option.map_eq_some_iff] at he
    obtain ⟨s, hs, rfl⟩ := he
    exact hturns s hs

end Queue

namespace Hub

variable {h h' : Hub} {name : String} {q : Queue}

/-- A broker hands out what waits in a queue: what it has handed out arrives, in order, at the ends
of the streams of the consumers. -/
structure Dispatches (h : Hub) (name : String) (q : Queue) (h' : Hub) (sends : List Sending)
    (left : Queue) (out : List (Feed × Message)) : Prop where
  dispatched : Queue.Dispatched h.isLive (fun _ f => !h.isLive f) q sends left out
  queues : ∀ other, h'.queues.get? other = if other = name then some left else h.queues.get? other
  streams : ∀ stream, h'.streams.get? stream = (h.streams.get? stream).map
    (· ++ (out.filter (·.1.stream == stream)).map fun e => ⟨name, e.2⟩)
  alike : h.Alike h'

theorem dispatches (hq : h.queues.get? name = some q) :
    ∃ sends left out, h.Dispatches name q (h.dispatch name) sends left out := by
  obtain ⟨sends, hsends⟩ := Queue.dispatched h.isLive (fun _ f => !h.isLive f) q
  refine ⟨sends, _, _, hsends, fun other => ?_, fun stream => ?_, dispatch_alike h name⟩
  · rw [dispatch_of_get? hq]
    exact Table.get?_insert _ _ _ _
  · rw [dispatch_of_get? hq]
    exact get?_deliver _ _ _

/-- A message that is put back goes to the front of its queue, and then the queue is dispatched. -/
theorem dispatches_requeue (hq : h.queues.get? name = some q) (m : Message) :
    ∃ sends left out, h.Dispatches name { q with messages := m.again :: q.messages }
      (h.requeue ⟨name, m⟩) sends left out := by
  let put (q : Queue) : Queue := { q with messages := m.again :: q.messages }
  let h₁ : Hub := { h with queues := h.queues.modify name put }
  have hget : ∀ other, h₁.queues.get? other =
      if other = name then (h.queues.get? other).map put else h.queues.get? other :=
    fun other => Table.get?_modify h.queues name other put
  have hput : h₁.queues.get? name = some (put q) := by
    rw [hget, if_pos rfl, hq]
    rfl
  obtain ⟨sends, left, out, hd⟩ := dispatches hput
  refine ⟨sends, left, out, hd.dispatched, fun other => (hd.queues other).trans ?_, hd.streams,
    requeue_alike h _⟩
  rw [hget]
  split <;> rfl

end Hub

/-- A dispatch comes to an end and loses, doubles and reorders nothing, whichever consumers are
closed at its start or found closed by a send. So does the dispatch of a broker's queue, also after
a message was put back to its front. -/
theorem dispatch_lossless :
    (∀ live closes (q : Queue), ∃ sends, Queue.Dispatched live closes q sends
      (q.dispatch live closes).1 (q.dispatch live closes).2) ∧
    ∀ (h : Hub) (name : String) (q : Queue), h.queues.get? name = some q →
      (∃ sends left out, h.Dispatches name q (h.dispatch name) sends left out) ∧
      ∀ m, ∃ sends left out, h.Dispatches name { q with messages := m.again :: q.messages }
        (h.requeue ⟨name, m⟩) sends left out :=
  ⟨Queue.dispatched, fun _ _ _ hq => ⟨Hub.dispatches hq, Hub.dispatches_requeue hq⟩⟩

/-! ## A queue with three consumers -/

/-- A queue with two messages and three consumers whose turns are about to start again from zero. -/
def threefold : Queue where
  durable := true
  exclusive := false
  messages := [{ body := [109], headers := .empty }, { body := [110], headers := .empty }]
  feeds := [⟨1, 1⟩, ⟨1, 2⟩, ⟨2, 3⟩]
  turn := UInt64.ofNat (UInt64.size - 1)

/-- A broker with that queue, where the stream of the second consumer has been closed. -/
def threefoldHub : Hub where
  queues := .ofList [("q", threefold)]
  streams := .ofList [(1, []), (3, [])]
  opened := 3

/-- The closed consumer is gone, and the last of the others is first in turn. -/
theorem dispatch_threefold :
    threefoldHub.queues.get? "q" = some threefold ∧
      (∃ sends left out, threefoldHub.Dispatches "q" threefold (threefoldHub.dispatch "q") sends
        left out) ∧
      (threefoldHub.dispatch "q").waiting "q" = [] ∧
      (threefoldHub.dispatch "q").streams.get? 3 =
        some [⟨"q", { body := [109], headers := .empty }⟩] ∧
      (threefoldHub.dispatch "q").streams.get? 1 =
        some [⟨"q", { body := [110], headers := .empty }⟩] :=
  ⟨by decide +kernel, (dispatch_lossless.2 threefoldHub "q" threefold (by decide +kernel)).1,
    by decide +kernel⟩

/-- The second send finds its consumer closed, and the message goes to another one. -/
example : (threefold.dispatch (fun _ => true) fun n _ => n == 1).2 =
    [(⟨1, 1⟩, { body := [109], headers := .empty }),
      (⟨2, 3⟩, { body := [110], headers := .empty })] := by decide +kernel

end Reconnect.Rehearsal
