import Reconnect.Proofs.Rehearsal.Copies

/-!
# What a broker keeps in order

Whatever is asked of a broker, and whatever happens to it, its bindings lead from exchanges to
queues that are there, none of them stands twice, and no message waits in a queue whose consumers
could have it (`Hub.Coherent`, `Hub.dependable_run`). Each operation adds, removes or puts back
something, and hands out again where that calls for it.

Two of its parts are about the queues and the streams and are followed together: a queue that has
been given a message or a consumer is in order again once it has handed out (`Tended.dispatch`), and
a consumer never gets a stream that is opened after its own, since streams are numbered.

Since every binding leads to a queue that is there, an acknowledgement means that a queue has
received a copy (`Hub.Distributes`).
-/

namespace Reconnect.Rehearsal

open Broker
open scoped List

namespace Queue

variable {closes : Nat → Feed → Bool}

/-- Handing out goes on until no message waits or no consumer is left. -/
theorem handOut_exhausts (n : Nat) (q : Queue) :
    (q.handOut closes n).1.messages = [] ∨ (q.handOut closes n).1.feeds = [] := by
  fun_induction handOut closes n q with
  | case1 n q hm => exact .inl hm
  | case2 n q hf hm => exact .inr hf
  | case3 n q m rest f fs hm hf i hi feed hc ih => exact ih
  | case4 n q m rest f fs hm hf i hi feed hc r ih => exact ih

/-- The consumers that are left are consumers of the queue. -/
theorem mem_feeds_of_mem_left {n : Nat} {q : Queue} {f : Feed}
    (hf : f ∈ (q.handOut closes n).1.feeds) : f ∈ q.feeds := by
  fun_induction handOut closes n q with
  | case1 n q hm => exact hf
  | case2 n q hm hnone => exact hf
  | case3 n q m rest f' fs hm hq i hi feed hc ih =>
    rw [hq]
    exact List.mem_of_mem_eraseIdx (ih hf)
  | case4 n q m rest f' fs hm hq i hi feed hc r ih => exact ih hf

end Queue

namespace Hub

variable {h h' : Hub} {queue name exchange key : String} {busy busy' : List String}

/-! ## Bindings -/

/-- Every binding names a queue and an exchange that are there, and no binding stands twice. -/
structure Linked (h : Hub) : Prop where
  queue : ∀ b ∈ h.bindings, h.queues.contains b.queue = true
  exchange : ∀ b ∈ h.bindings, h.exchanges.contains b.exchange = true
  nodup : h.bindings.Nodup

namespace Linked

/-- A broker with the same bindings that has lost neither a queue nor an exchange. -/
theorem of_bindings (hl : h.Linked) (hb : h'.bindings = h.bindings)
    (hq : ∀ name, h.queues.contains name = true → h'.queues.contains name = true)
    (hx : ∀ name, h.exchanges.contains name = true → h'.exchanges.contains name = true) :
    h'.Linked where
  queue b hmem := hq _ (hl.queue b (hb ▸ hmem))
  exchange b hmem := hx _ (hl.exchange b (hb ▸ hmem))
  nodup := hb ▸ hl.nodup

/-- A broker with some of the bindings, whose queues and exchanges are still there. -/
theorem of_filter (hl : h.Linked) {p : Binding → Bool} (hb : h'.bindings = h.bindings.filter p)
    (hq : ∀ b, p b = true → h.queues.contains b.queue = true → h'.queues.contains b.queue = true)
    (hx : ∀ b, p b = true → h.exchanges.contains b.exchange = true →
      h'.exchanges.contains b.exchange = true) : h'.Linked where
  queue b hmem := by
    obtain ⟨hmem, hp⟩ := List.mem_filter.1 (hb ▸ hmem)
    exact hq b hp (hl.queue b hmem)
  exchange b hmem := by
    obtain ⟨hmem, hp⟩ := List.mem_filter.1 (hb ▸ hmem)
    exact hx b hp (hl.exchange b hmem)
  nodup := hb ▸ hl.nodup.filter p

theorem removeQueue (hl : h.Linked) (name : String) : (h.removeQueue name).Linked := by
  refine hl.of_filter rfl (fun b hp hc => ?_) fun _ _ hc => hc
  have hne : b.queue ≠ name := of_decide_eq_true hp
  rwa [Table.contains, Hub.removeQueue, Table.get?_erase, if_neg hne]

theorem removeExchange (hl : h.Linked) (name : String) : (h.removeExchange name).Linked := by
  refine hl.of_filter rfl (fun _ _ hc => hc) fun b hp hc => ?_
  have hne : b.exchange ≠ name := of_decide_eq_true hp
  rwa [Table.contains, Hub.removeExchange, Table.get?_erase, if_neg hne]

theorem contains_insertNew {α : Type} {t : Table String α} {k k' : String} {a : α}
    (hc : t.contains k' = true) : (t.insertNew k a).contains k' = true := by
  obtain ⟨b, hb⟩ := Option.isSome_iff_exists.1 hc
  rw [Table.contains, get?_insertNew, hb]
  rfl

theorem declareExchange (hl : h.Linked) (x : ExchangeOptions) : (h.declareExchange x).Linked :=
  hl.of_bindings rfl (fun _ hc => hc) fun _ => contains_insertNew

theorem declareQueue (hl : h.Linked) (q : QueueOptions) : (h.declareQueue q).Linked :=
  hl.of_bindings rfl (fun _ => contains_insertNew) fun _ hc => hc

/-- A binding is added only where its queue and its exchange are there, and only once. -/
theorem bind (hl : h.Linked) (queue : String) (b : QueueBinding) : (h.bind queue b).1.Linked := by
  rw [Hub.bind]
  split
  · exact hl
  rename_i hq
  split
  · exact hl
  rename_i hx
  rw [Bool.not_eq_true, Bool.not_eq_false'] at hq hx
  dsimp only
  split
  · exact hl
  rename_i hnew
  rw [List.contains_iff_mem] at hnew
  refine ⟨fun b' hb' => ?_, fun b' hb' => ?_, ?_⟩
  · rcases List.mem_append.1 hb' with hb' | hb'
    · exact hl.queue b' hb'
    · obtain rfl := List.mem_singleton.1 hb'
      exact hq
  · rcases List.mem_append.1 hb' with hb' | hb'
    · exact hl.exchange b' hb'
    · obtain rfl := List.mem_singleton.1 hb'
      exact hx
  · exact List.nodup_append.2 ⟨hl.nodup, List.pairwise_singleton _ _, fun b' hb' b'' hb'' he =>
      hnew (List.mem_singleton.1 hb'' ▸ he ▸ hb')⟩

theorem deleteQueue (hl : h.Linked) (name : String) (ifUnused ifEmpty : Bool) :
    (h.deleteQueue name ifUnused ifEmpty).1.Linked := by
  rw [Hub.deleteQueue]
  split
  · exact hl
  · split
    · exact hl
    · split
      · exact hl
      · exact hl.removeQueue name

theorem dispatch (hl : h.Linked) (name : String) : (h.dispatch name).Linked := by
  rw [Hub.dispatch]
  split
  · exact hl
  case h_2 q hq =>
    refine hl.of_bindings rfl (fun other hc => ?_) fun _ hc => hc
    rw [Table.contains, Table.get?_insert]
    split
    · rfl
    · exact hc

theorem modify (hl : h.Linked) (name : String) (put : Queue → Queue) :
    Linked { h with queues := h.queues.modify name put } := by
  refine hl.of_bindings rfl (fun other hc => ?_) fun _ hc => hc
  rw [Table.contains, Table.get?_modify]
  split
  · rwa [Option.isSome_map]
  · exact hc

theorem enqueue (hl : h.Linked) (name : String) (m : Message) : (h.enqueue name m).Linked :=
  (hl.modify name _).dispatch name

theorem requeue (hl : h.Linked) (d : Delivery) : (h.requeue d).Linked :=
  (hl.modify d.queue _).dispatch d.queue

theorem dropFeeds (hl : h.Linked) (p : Feed → Bool) : (h.dropFeeds p).Linked := by
  refine hl.of_bindings rfl (fun other hc => ?_) fun _ hc => hc
  rw [Table.contains, Hub.dropFeeds, Table.get?_mapValues]
  rwa [Option.isSome_map]

end Linked

/-! ## Consumers -/

/-- Nothing waits in a queue that has a consumer whose stream is held. -/
def Rests (h : Hub) (name : String) : Prop :=
  ∀ q, h.queues.get? name = some q → q.messages ≠ [] → h.consumed q = false

/-- A broker that has handed out what it can, except from some queues. No consumer has a stream
that is still to be opened. -/
structure Tended (h : Hub) (busy : List String) : Prop where
  rests : ∀ name, name ∉ busy → h.Rests name
  numbered : ∀ name q, h.queues.get? name = some q → ∀ f ∈ q.feeds, f.stream ≤ h.opened

theorem consumed_eq_false_iff {q : Queue} :
    h.consumed q = false ↔ ∀ f ∈ q.feeds, h.streams.contains f.stream = false := by
  rw [consumed, List.any_eq_false]
  exact forall₂_congr fun f _ => by rw [isLive, Bool.not_eq_true]

namespace Tended

/-- A broker that has gained neither messages nor consumers, in the queues that are not excepted,
and has opened no stream that a consumer could have. -/
theorem mono (ht : h.Tended busy)
    (hq : ∀ name q', h'.queues.get? name = some q' → q'.feeds = [] ∨
      ∃ q, h.queues.get? name = some q ∧ q'.feeds ⊆ q.feeds ∧
        (name ∉ busy' → name ∉ busy ∧ q'.messages = q.messages))
    (hs : ∀ stream ≤ h.opened, h'.streams.contains stream = true →
      h.streams.contains stream = true)
    (ho : h.opened ≤ h'.opened) : h'.Tended busy' where
  rests name hn q' hq' hm := by
    rw [consumed_eq_false_iff]
    intro f hf
    rcases hq name q' hq' with hnone | ⟨q, hget, hsub, hsame⟩
    · rw [hnone] at hf
      cases hf
    · obtain ⟨hn, hmessages⟩ := hsame hn
      have hdead := consumed_eq_false_iff.1 (ht.rests name hn q hget (hmessages ▸ hm)) f (hsub hf)
      have hle := ht.numbered name q hget f (hsub hf)
      rw [← Bool.not_eq_true] at hdead ⊢
      exact fun hc => hdead (hs _ hle hc)
  numbered name q' hq' f hf := by
    rcases hq name q' hq' with hnone | ⟨q, hget, hsub, -⟩
    · rw [hnone] at hf
      cases hf
    · exact Nat.le_trans (ht.numbered name q hget f (hsub hf)) ho

/-- The same, where the queues have not changed. -/
theorem of_queues (ht : h.Tended busy) (hq : h'.queues = h.queues)
    (hs : ∀ stream, h'.streams.contains stream = true → h.streams.contains stream = true)
    (ho : h'.opened = h.opened) : h'.Tended busy :=
  ht.mono (fun _ q' hq' => .inr ⟨q', hq ▸ hq', List.Subset.refl _, fun hn => ⟨hn, rfl⟩⟩)
    (fun stream _ => hs stream) (Nat.le_of_eq ho.symm)

theorem removeQueue (ht : h.Tended busy) (name : String) : (h.removeQueue name).Tended busy := by
  refine ht.mono (fun other q' hq' => .inr ⟨q', ?_, List.Subset.refl _, fun hn => ⟨hn, rfl⟩⟩)
    (fun _ _ hc => hc) (Nat.le_refl _)
  rw [Hub.removeQueue, Table.get?_erase] at hq'
  split at hq'
  · cases hq'
  · exact hq'

theorem deleteQueue (ht : h.Tended busy) (name : String) (ifUnused ifEmpty : Bool) :
    (h.deleteQueue name ifUnused ifEmpty).1.Tended busy := by
  rw [Hub.deleteQueue]
  split
  · exact ht
  · split
    · exact ht
    · split
      · exact ht
      · exact ht.removeQueue name

/-- A queue that is declared has no consumer, or was there before. -/
theorem declareQueue (ht : h.Tended busy) (q : QueueOptions) :
    (h.declareQueue q).Tended busy := by
  refine ht.mono (fun name q' hq' => ?_) (fun _ _ hc => hc) (Nat.le_refl _)
  rw [Hub.declareQueue, get?_insertNew] at hq'
  cases hget : h.queues.get? name with
  | some q =>
    rw [hget] at hq'
    cases hq'
    exact .inr ⟨_, rfl, List.Subset.refl _, fun hn => ⟨hn, rfl⟩⟩
  | none =>
    rw [hget, Option.none_or] at hq'
    split at hq'
    · cases hq'
      exact .inl rfl
    · cases hq'

theorem dropFeeds (ht : h.Tended busy) (p : Feed → Bool) : (h.dropFeeds p).Tended busy := by
  refine ht.mono (fun name q' hq' => .inr ?_) (fun _ _ hc => hc) (Nat.le_refl _)
  rw [Hub.dropFeeds, Table.get?_mapValues] at hq'
  obtain ⟨q, hget, rfl⟩ := Option.map_eq_some_iff.1 hq'
  exact ⟨q, hget, List.filter_sublist.subset, fun hn => ⟨hn, rfl⟩⟩

/-- A queue may be given messages before it hands them out. -/
theorem modify (ht : h.Tended []) (name : String) (put : Queue → Queue)
    (hp : ∀ q, (put q).feeds = q.feeds) :
    Tended { h with queues := h.queues.modify name put } [name] := by
  refine ht.mono (fun other q' hq' => .inr ?_) (fun _ _ hc => hc) (Nat.le_refl _)
  rw [Table.get?_modify] at hq'
  split at hq'
  case isTrue he =>
    obtain ⟨q, hget, rfl⟩ := Option.map_eq_some_iff.1 hq'
    exact ⟨q, hget, fun f hf => hp q ▸ hf, fun hn => absurd (List.mem_singleton.2 he) hn⟩
  case isFalse => exact ⟨q', hq', List.Subset.refl _, fun _ => ⟨List.not_mem_nil, rfl⟩⟩

/-- Once a queue has handed out, either nothing waits there or no consumer is left. -/
theorem dispatch (ht : h.Tended [queue]) : (h.dispatch queue).Tended [] := by
  cases hget : h.queues.get? queue with
  | none =>
    have hsame : h.dispatch queue = h := by rw [Hub.dispatch, hget]
    rw [hsame]
    refine ⟨fun name _ q hq => ?_, ht.numbered⟩
    refine ht.rests name (fun hn => ?_) q hq
    rw [List.mem_singleton.1 hn, hget] at hq
    cases hq
  | some q =>
    have hfeeds : (h.handOut q).1.feeds ⊆ q.feeds := fun f hf =>
      (List.mem_filter.1 (Queue.mem_feeds_of_mem_left hf)).1
    have hstreams : ∀ stream, (h.dispatch queue).streams.contains stream =
        h.streams.contains stream := by
      intro stream
      rw [dispatch_of_get? hget, Table.contains, get?_deliver, Option.isSome_map]
      rfl
    refine ⟨fun name _ q' hq' hm => ?_, fun name q' hq' f hf => ?_⟩ <;>
      rw [dispatch_of_get? hget, Table.get?_insert] at hq' <;> split at hq'
    case refine_1.isTrue =>
      cases hq'
      -- a queue hands out until it has no message or no consumer left
      rcases Queue.handOut_exhausts 0 { q with feeds := q.feeds.filter h.isLive } with hnone | hnone
      · exact absurd hnone hm
      · rw [consumed_eq_false_iff]
        intro f hf
        have hnone : (h.handOut q).1.feeds = [] := hnone
        rw [hnone] at hf
        cases hf
    case refine_1.isFalse hn =>
      have hidle := ht.rests name (by simpa using hn) q' hq' hm
      rw [consumed_eq_false_iff] at hidle ⊢
      exact fun f hf => (hstreams f.stream).trans (hidle f hf)
    case refine_2.isTrue =>
      cases hq'
      rw [dispatch_of_get? hget]
      exact ht.numbered queue q hget f (hfeeds hf)
    case refine_2.isFalse =>
      rw [dispatch_of_get? hget]
      exact ht.numbered name q' hq' f hf

theorem enqueue (ht : h.Tended []) (name : String) (m : Message) : (h.enqueue name m).Tended [] :=
  (ht.modify name (fun q => { q with messages := q.messages ++ [m] }) fun _ => rfl).dispatch

theorem requeue (ht : h.Tended []) (d : Delivery) : (h.requeue d).Tended [] :=
  (ht.modify d.queue (fun q => { q with messages := d.message.again :: q.messages })
    fun _ => rfl).dispatch

/-- No consumer has the stream that is opened for a new one. -/
theorem consume (ht : h.Tended []) (c : Nat) (queue : String) :
    (h.consume c queue).1.Tended [] := by
  rw [Hub.consume]
  split
  case isFalse => exact ht
  refine dispatch ⟨fun name hn q' hq' hm => ?_, fun name q' hq' f hf => ?_⟩ <;>
    rw [Table.get?_modify] at hq' <;> split at hq'
  case refine_1.isTrue he => exact absurd (List.mem_singleton.2 he) hn
  case refine_1.isFalse =>
    have hidle := ht.rests name List.not_mem_nil q' hq' hm
    rw [consumed_eq_false_iff] at hidle ⊢
    intro f hf
    -- the stream that is opened has a number that no consumer has yet
    have hne : f.stream ≠ h.opened + 1 :=
      Nat.ne_of_lt (Nat.lt_succ_of_le (ht.numbered name q' hq' f hf))
    rw [Table.contains, Table.get?_insert, if_neg hne]
    exact hidle f hf
  case refine_2.isTrue =>
    obtain ⟨q, hget, rfl⟩ := Option.map_eq_some_iff.1 hq'
    rcases List.mem_append.1 hf with hf | hf
    · exact Nat.le_succ_of_le (ht.numbered name q hget f hf)
    · obtain rfl := List.mem_singleton.1 hf
      exact Nat.le_refl _
  case refine_2.isFalse => exact Nat.le_succ_of_le (ht.numbered name q' hq' f hf)

/-- Taking from a stream leaves it there. -/
theorem take (ht : h.Tended busy) (stream : Nat) : (h.take stream).1.Tended busy := by
  rw [Hub.take]
  split
  case h_1 d rest hs =>
    refine ht.of_queues rfl (fun other hc => ?_) rfl
    rw [Table.contains, Table.get?_insert] at hc
    split at hc
    case isTrue he =>
      rw [he, Table.contains, hs]
      rfl
    case isFalse => exact hc
  case h_2 => exact ht

/-- A consumer whose stream is dropped can have nothing any more. -/
theorem leave (ht : h.Tended busy) (stream : Nat) : (h.leave stream).Tended busy := by
  refine ht.of_queues rfl (fun other hc => ?_) rfl
  rw [Table.contains, Hub.leave, Table.get?_erase] at hc
  split at hc
  · cases hc
  · exact hc

end Tended

/-! ## Runs -/

/-- A broker in order: every binding names a queue and an exchange that are there, no binding
stands twice, and nothing waits in a queue that has a consumer whose stream is held. -/
structure Coherent (h : Hub) : Prop extends Linked h where
  idle : ∀ name, h.Rests name

/-- What can be asked of a broker and what can happen to it. -/
inductive Move where
  | connect
  | hangUp (channel : Nat)
  | closeChannel (channel : Nat)
  | declareExchange (channel : Nat) (exchange : ExchangeOptions)
  | deleteExchange (channel : Nat) (name : String)
  | declareQueue (channel : Nat) (queue : QueueOptions)
  | bindQueue (channel : Nat) (queue : String) (binding : QueueBinding)
  | deleteQueue (channel : Nat) (name : String) (ifUnused ifEmpty : Bool)
  | publish (channel : Nat) (exchange key : String) (body : Bytes) (headers : Headers)
  | consume (channel : Nat) (queue : String)
  | take (stream : Nat)
  | leave (stream : Nat)
  | settle (delivery : Delivery) (verdict : Verdict)
  | inject (queue : String) (body : Bytes) (id? : Option String)
  | failSettlements (n : Nat)
  | dropConsumers
  | resetTransient
  /-- The network or the clock changes. -/
  | network (network : Network)
  deriving DecidableEq

/-- The broker after a move. -/
def Move.step (h : Hub) : Move → Hub
  | .connect => (Site.connect h).1
  | .hangUp c => Site.close h c
  | .closeChannel c => (Channels.closeChannel h c).1
  | .declareExchange c x => (Channels.declareExchange h c x).1
  | .deleteExchange c name => (Channels.deleteExchange h c name).1
  | .declareQueue c q => (Channels.declareQueue h c q).1
  | .bindQueue c queue b => (Channels.bindQueue h c queue b).1
  | .deleteQueue c name ifUnused ifEmpty => (Channels.deleteQueue h c name ifUnused ifEmpty).1
  | .publish c exchange key body headers => (Channels.publish h c exchange key body headers).1
  | .consume c queue => (Channels.consume h c queue).1
  | .take stream => (Channels.take (C := Nat) h stream).1
  | .leave stream => Channels.leave (C := Nat) h stream
  | .settle d v => (Channels.settle (C := Nat) h d v).1
  | .inject queue body id? => h.inject queue body id?
  | .failSettlements n => { h with failingSettlements := n }
  | .dropConsumers => h.dropConsumers
  | .resetTransient => h.resetTransient
  | .network n => { h with network := n }

/-- A broker that starts with nothing, after some moves. -/
def run (moves : List Move) : Hub := moves.foldl Move.step {}

/-- What is kept by every move. -/
structure Ordered (h : Hub) : Prop where
  linked : h.Linked
  tended : h.Tended []

namespace Ordered

theorem removeQueue (ho : h.Ordered) (name : String) : (h.removeQueue name).Ordered :=
  ⟨ho.linked.removeQueue name, ho.tended.removeQueue name⟩

theorem removeExchange (ho : h.Ordered) (name : String) : (h.removeExchange name).Ordered :=
  ⟨ho.linked.removeExchange name, ho.tended.of_queues rfl (fun _ hc => hc) rfl⟩

theorem enqueue (ho : h.Ordered) (name : String) (m : Message) : (h.enqueue name m).Ordered :=
  ⟨ho.linked.enqueue name m, ho.tended.enqueue name m⟩

theorem requeue (ho : h.Ordered) (d : Delivery) : (h.requeue d).Ordered :=
  ⟨ho.linked.requeue d, ho.tended.requeue d⟩

theorem dropFeeds (ho : h.Ordered) (p : Feed → Bool) : (h.dropFeeds p).Ordered :=
  ⟨ho.linked.dropFeeds p, ho.tended.dropFeeds p⟩

/-- Nothing but the bindings, the queues and the streams plays a part. -/
theorem of_same (ho : h.Ordered) (hb : h'.bindings = h.bindings) (hx : h'.exchanges = h.exchanges)
    (hq : h'.queues = h.queues) (hs : h'.streams = h.streams) (hn : h'.opened = h.opened) :
    h'.Ordered :=
  ⟨ho.linked.of_bindings hb (fun _ hc => hq ▸ hc) fun _ hc => hx ▸ hc,
    ho.tended.of_queues hq (fun _ hc => hs ▸ hc) hn⟩

theorem foldl {α : Type} {f : Hub → α → Hub} (hf : ∀ h a, h.Ordered → (f h a).Ordered)
    (ho : h.Ordered) (as : List α) : (as.foldl f h).Ordered := by
  induction as generalizing h with
  | nil => exact ho
  | cons a rest ih => exact ih (hf h a ho)

theorem serve {α : Type} (ho : h.Ordered) (c : Nat) {r : Hub × Except Fault α}
    (hr : r.1.Ordered) : (h.serve c r).1.Ordered := by
  rw [Hub.serve]
  split
  · exact ho
  · exact hr

theorem publish (ho : h.Ordered) (exchange key : String) (body : Bytes) (headers : Headers) :
    (h.publish exchange key body headers).1.Ordered := by
  rw [Hub.publish]
  split
  · exact ho
  · exact ho
  · exact foldl (fun h name ho => ho.enqueue name _) ho _

theorem consume (ho : h.Ordered) (c : Nat) (queue : String) : (h.consume c queue).1.Ordered := by
  refine ⟨?_, ho.tended.consume c queue⟩
  rw [Hub.consume]
  split
  · exact Linked.dispatch (h := { h with
      opened := h.opened + 1
      streams := h.streams.insert (h.opened + 1) []
      queues := h.queues.modify queue fun q =>
        { q with feeds := q.feeds ++ [⟨c, h.opened + 1⟩] } })
      ((ho.linked.modify queue _).of_bindings rfl (fun _ hc => hc) fun _ hc => hc) queue
  · exact ho.linked

theorem take (ho : h.Ordered) (stream : Nat) : (h.take stream).1.Ordered := by
  refine ⟨?_, ho.tended.take stream⟩
  rw [Hub.take]
  split
  · exact ho.linked.of_bindings rfl (fun _ hc => hc) fun _ hc => hc
  · exact ho.linked

/-- A settlement that fails and one that rejects a message for another time both put it back. -/
theorem settle (ho : h.Ordered) (d : Delivery) (v : Verdict) : (h.settle d v).1.Ordered := by
  rw [Hub.settle]
  split
  · exact ho
  · split
    · exact requeue (h := { h with failingSettlements := h.failingSettlements - 1 })
        (ho.of_same rfl rfl rfl rfl rfl) d
    · dsimp only
      split
      · exact requeue (h := { h with settled := h.settled ++ [⟨d.message, v⟩] })
          (ho.of_same rfl rfl rfl rfl rfl) d
      · exact ho.of_same rfl rfl rfl rfl rfl

theorem resetTransient (ho : h.Ordered) : h.resetTransient.Ordered :=
  foldl (fun _ name ho => ho.removeExchange name)
    (foldl (fun _ name ho => ho.removeQueue name) ho _) _

theorem close (ho : h.Ordered) (c : Nat) : (h.close c).Ordered :=
  (ho.dropFeeds (·.channel == c)).of_same rfl rfl rfl rfl rfl

theorem step (ho : h.Ordered) (m : Move) : (m.step h).Ordered := by
  cases m with
  | connect => exact ho.of_same rfl rfl rfl rfl rfl
  | hangUp c =>
    exact close (h := { h with network := h.network.countClosed })
      (ho.of_same rfl rfl rfl rfl rfl) c
  | closeChannel c => exact ho.close c
  | declareExchange c x =>
    exact ho.serve c ⟨ho.linked.declareExchange x, ho.tended.of_queues rfl (fun _ hc => hc) rfl⟩
  | deleteExchange c name => exact ho.serve c (ho.removeExchange name)
  | declareQueue c q => exact ho.serve c ⟨ho.linked.declareQueue q, ho.tended.declareQueue q⟩
  | bindQueue c queue b =>
    refine ho.serve c ⟨ho.linked.bind queue b, ?_⟩
    rw [Hub.bind]
    split
    · exact ho.tended
    · split
      · exact ho.tended
      · dsimp only
        split
        · exact ho.tended
        · exact ho.tended.of_queues rfl (fun _ hc => hc) rfl
  | deleteQueue c name ifUnused ifEmpty =>
    exact ho.serve c ⟨ho.linked.deleteQueue name ifUnused ifEmpty,
      ho.tended.deleteQueue name ifUnused ifEmpty⟩
  | publish c exchange key body headers =>
    exact ho.serve c (ho.publish exchange key body headers)
  | consume c queue => exact ho.serve c (ho.consume c queue)
  | take stream => exact ho.take stream
  | leave stream =>
    exact ⟨ho.linked.of_bindings rfl (fun _ hc => hc) fun _ hc => hc, ho.tended.leave stream⟩
  | settle d v => exact ho.settle d v
  | inject queue body id? => exact ho.enqueue queue _
  | failSettlements n => exact ho.of_same rfl rfl rfl rfl rfl
  | dropConsumers => exact ho.dropFeeds fun _ => true
  | resetTransient => exact ho.resetTransient
  | network n => exact ho.of_same rfl rfl rfl rfl rfl

end Ordered

theorem ordered_empty : Ordered {} where
  linked := ⟨fun _ hb => absurd hb List.not_mem_nil, fun _ hb => absurd hb List.not_mem_nil,
    List.nodup_nil⟩
  tended.rests _ _ _ hq := by cases hq
  tended.numbered _ _ hq := by cases hq

theorem ordered_run (moves : List Move) : (run moves).Ordered :=
  Ordered.foldl (fun _ m ho => ho.step m) ordered_empty moves

/-! ## Publishing -/

/-- The queues that a message with a routing key goes to from an exchange. -/
inductive Matches (h : Hub) (key : String) : (exchange queue : String) → Prop
  /-- The exchange without a name leads to the queue that the routing key names. -/
  | named (hq : h.queues.contains key = true) : Matches h key "" key
  | bound {x : Exchange} {b : Binding} (hne : b.exchange ≠ "")
      (hx : h.exchanges.get? b.exchange = some x) (hb : b ∈ h.bindings)
      (ht : takes x.kind b.routingKey key = true) : Matches h key b.exchange b.queue

theorem matches_nameless : h.Matches key "" queue ↔ queue = key ∧ h.queues.contains key = true := by
  constructor
  · intro hm
    generalize hx : "" = exchange at hm
    cases hm with
    | named hq => exact ⟨rfl, hq⟩
    | bound hne => exact absurd hx.symm hne
  · rintro ⟨rfl, hq⟩
    exact .named hq

theorem mem_route {targets : List String} (hr : h.route exchange key = .ok targets) :
    queue ∈ targets ↔ h.Matches key exchange queue := by
  unfold route at hr
  split at hr
  case isTrue he =>
    cases hr
    rw [he, matches_nameless]
    split <;> simp [*]
  case isFalse hne =>
    split at hr
    · cases hr
    case h_2 x hx =>
      cases hr
      rw [List.mem_eraseDups, List.mem_map]
      constructor
      · rintro ⟨b, hb, rfl⟩
        obtain ⟨hmem, hp⟩ := List.mem_filter.1 hb
        rw [Bool.and_eq_true, beq_iff_eq] at hp
        obtain ⟨rfl, ht⟩ := hp
        exact .bound hne hx hmem ht
      · intro hm
        cases hm with
        | named => exact absurd rfl hne
        | @bound x' b hne' hx' hb ht =>
          cases hx.symm.trans hx'
          exact ⟨b, List.mem_filter.2 ⟨hb, by simp [ht]⟩, rfl⟩

/-- Nothing matches at an exchange that is not there. -/
theorem not_matches_of_route {f : Fault} (hr : h.route exchange key = .error f) :
    ¬ h.Matches key exchange queue := by
  intro hm
  unfold route at hr
  cases hm with
  | named => simp at hr
  | bound hne hx => simp [hne, hx] at hr

/-- A queue that has received one copy more of a message. -/
def Gets (h h' : Hub) (m : Message) (queue : String) : Prop := h'.held queue ~ m :: h.held queue

theorem not_gets_self (h : Hub) (m : Message) (queue : String) : ¬ h.Gets h m queue := by
  intro hg
  have hlength := hg.length_eq
  rw [List.length_cons] at hlength
  omega

/-- The request to publish a message, once it reaches the routing, brings one copy to each queue
that matches and none to any other one, and is acknowledged if and only if a queue has received a
copy. -/
structure Distributes (h : Hub) (c : Nat) (exchange key : String) (body : Bytes)
    (headers : Headers) : Prop where
  acknowledged : (request h c (.publish exchange key body headers)).2 =
      .ok (.confirmed .accepted) ↔
    ∃ queue, h.Gets (request h c (.publish exchange key body headers)).1 { body, headers } queue
  copied : ∀ queue, h.Matches key exchange queue →
    h.Gets (request h c (.publish exchange key body headers)).1 { body, headers } queue
  spared : ∀ queue, ¬ h.Matches key exchange queue →
    (request h c (.publish exchange key body headers)).1.held queue = h.held queue

theorem Linked.distributes (hl : h.Linked) {c : Nat} (hf : h.fault? c = none)
    (exchange key : String) (body : Bytes) (headers : Headers) :
    h.Distributes c exchange key body headers := by
  have hposted := posted_request h c exchange key body headers
  have hthere : ∀ queue, h.Matches key exchange queue → h.queues.contains queue = true := by
    intro queue hm
    cases hm with
    | named hq => exact hq
    | bound hne hx hb ht => exact hl.queue _ hb
  -- a request that changes nothing is not acknowledged, and no queue matches
  have hnothing : ∀ {r : Hub × Except Fault (Broker.Reply Nat)}, r.1 = h →
      r.2 ≠ .ok (.confirmed .accepted) → (∀ queue, ¬ h.Matches key exchange queue) →
      r = request h c (.publish exchange key body headers) →
      h.Distributes c exchange key body headers := by
    rintro r hr hanswer hnone rfl
    refine ⟨⟨fun ha => absurd ha hanswer, ?_⟩, fun queue hm => absurd hm (hnone queue),
      fun queue _ => by rw [hr]⟩
    rintro ⟨queue, hg⟩
    rw [hr] at hg
    exact absurd hg (h.not_gets_self _ queue)
  generalize hreq : request h c (.publish exchange key body headers) = r at hposted
  cases hposted with
  | failed hfail =>
    rcases hfail with hfail | hfail
    · rw [hf] at hfail
      cases hfail
    · exact hnothing rfl (by simp) (fun _ => not_matches_of_route hfail) hreq.symm
  | returned hr =>
    refine hnothing rfl (by simp) (fun queue hm => ?_) hreq.symm
    exact List.not_mem_nil ((mem_route hr).2 hm)
  | @published h' hp =>
    obtain ⟨targets, hr, hne, hreceives⟩ := hp
    have hcopied : ∀ queue, h.Matches key exchange queue → h.Gets h' { body, headers } queue :=
      fun queue hm => hreceives.received queue ((mem_route hr).2 hm) (hthere queue hm)
    obtain ⟨first, hfirst⟩ := List.exists_mem_of_ne_nil targets hne
    constructor <;> rw [hreq]
    · exact ⟨fun _ => ⟨first, hcopied first ((mem_route hr).1 hfirst)⟩, fun _ => rfl⟩
    · exact hcopied
    · exact fun queue hm => hreceives.held_eq fun hmem => hm ((mem_route hr).1 hmem)

/-- A broker that is in order, at which every publish that reaches the routing is distributed. -/
structure Dependable (h : Hub) : Prop where
  coherent : h.Coherent
  distributes : ∀ c, h.fault? c = none → ∀ exchange key body headers,
    h.Distributes c exchange key body headers

/-- Whatever has been asked of a broker and has happened to it, it is in order. -/
theorem dependable_run (moves : List Move) : (run moves).Dependable where
  coherent := ⟨(ordered_run moves).linked, fun name =>
    (ordered_run moves).tended.rests name List.not_mem_nil⟩
  distributes _ hf := (ordered_run moves).linked.distributes hf

end Hub

end Reconnect.Rehearsal
