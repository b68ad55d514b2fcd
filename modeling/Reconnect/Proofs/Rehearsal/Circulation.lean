import Reconnect.Proofs.Rehearsal.Coherence

/-!
# How messages go round

The copies that a broker holds of the messages of a queue wait there or lie in streams. Each move
brings some copies in and takes some away: a queue accepts what is published or injected
(`Hub.accepts`), gets back what a settlement does not conclude (`Hub.returns`), and gives away what
a receiver takes from a stream or drops with it (`Hub.yields`). Otherwise no move makes a copy or
loses one, as long as the queue is there (`Hub.flow_step`).
-/

namespace Reconnect.Rehearsal

open Broker
open scoped List

theorem Confined.contains_eq {h h' : Hub} {targets : List String} (hc : Confined h h' targets)
    (queue : String) : h'.queues.contains queue = h.queues.contains queue := by
  have hlayout : h'.layout.queue? queue = h.layout.queue? queue := by rw [hc.layout]
  have hsome := congrArg Option.isSome hlayout
  rwa [Hub.layout, Hub.layout, Option.isSome_map, Option.isSome_map] at hsome

namespace Hub

variable {h h' : Hub} {queue : String} {stream : Nat} {d : Delivery} {v : Verdict}

/-- The messages of the deliveries from a queue. -/
def fromQueue (queue : String) (ds : List Delivery) : List Message :=
  (ds.filter (·.queue == queue)).map Delivery.message

@[simp] theorem fromQueue_nil (queue : String) : fromQueue queue [] = [] := rfl

@[simp] theorem fromQueue_append (queue : String) (ds ds' : List Delivery) :
    fromQueue queue (ds ++ ds') = fromQueue queue ds ++ fromQueue queue ds' := by
  rw [fromQueue, List.filter_append, List.map_append]
  rfl

theorem fromQueue_cons (queue : String) (d : Delivery) (ds : List Delivery) :
    fromQueue queue (d :: ds) = fromQueue queue [d] ++ fromQueue queue ds :=
  fromQueue_append queue [d] ds

theorem fromQueue_of_queue (hd : d.queue = queue) : fromQueue queue [d] = [d.message] := by
  simp [fromQueue, hd]

theorem fromQueue_of_ne (hd : d.queue ≠ queue) : fromQueue queue [d] = [] := by
  simp [fromQueue, hd]

theorem fromQueue_perm {ds ds' : List Delivery} (hd : ds ~ ds') (queue : String) :
    fromQueue queue ds ~ fromQueue queue ds' :=
  (hd.filter _).map _

theorem mem_fromQueue {m : Message} {ds : List Delivery} :
    m ∈ fromQueue queue ds ↔ ⟨queue, m⟩ ∈ ds := by
  rw [fromQueue, List.mem_map]
  constructor
  · rintro ⟨⟨name, m'⟩, hd, rfl⟩
    obtain ⟨hmem, he⟩ := List.mem_filter.1 hd
    obtain rfl : name = queue := by simpa using he
    exact hmem
  · intro hd
    exact ⟨⟨queue, m⟩, List.mem_filter.2 ⟨hd, beq_self_eq_true queue⟩, rfl⟩

theorem inStream_of_get? {ds : List Delivery} (hs : h.streams.get? stream = some ds) :
    h.inStream queue stream = fromQueue queue ds := by
  rw [inStream, hs]
  rfl

theorem inStream_of_none (hs : h.streams.get? stream = none) : h.inStream queue stream = [] := by
  rw [inStream, hs]
  rfl

theorem handedOut_of_streams (hs : h'.streams = h.streams) :
    h'.handedOut queue = h.handedOut queue := by
  have hstream : h'.inStream queue = h.inStream queue := by
    funext stream
    rw [inStream, inStream, hs]
  rw [handedOut, handedOut, hs, hstream]

/-! ## One stream -/

/-- The messages from a queue that lie in the other streams. -/
def elsewhere (h : Hub) (queue : String) (stream : Nat) : List Message :=
  (h.streams.keys.eraseDups.filter (· != stream)).flatMap (h.inStream queue)

/-- What lies in the streams lies in one of them or in the others. -/
theorem handedOut_perm (h : Hub) (queue : String) (stream : Nat) :
    h.handedOut queue ~ h.inStream queue stream ++ h.elsewhere queue stream := by
  have hnodup := nodup_eraseDups h.streams.keys
  by_cases hs : stream ∈ h.streams.keys.eraseDups
  · have hsplit := (List.perm_cons_erase hs).flatMap_right (h.inStream queue)
    rwa [List.flatMap_cons, hnodup.erase_eq_filter] at hsplit
  · have hnone : h.streams.get? stream = none := by
      rw [List.mem_eraseDups, Table.mem_keys_iff, Option.not_isSome_iff_eq_none] at hs
      exact hs
    have hall : h.streams.keys.eraseDups.filter (· != stream) = h.streams.keys.eraseDups :=
      List.filter_eq_self.2 fun other ho => bne_iff_ne.2 fun he => hs (he ▸ ho)
    rw [elsewhere, hall, inStream_of_none hnone]
    exact .refl _

theorem elsewhere_perm (hs : ∀ other ≠ stream, h'.streams.get? other = h.streams.get? other) :
    h'.elsewhere queue stream ~ h.elsewhere queue stream := by
  have hkeys : h'.streams.keys.eraseDups.filter (· != stream) ~
      h.streams.keys.eraseDups.filter (· != stream) := by
    refine (List.perm_ext_iff_of_nodup ((nodup_eraseDups _).filter _)
      ((nodup_eraseDups _).filter _)).2 fun other => ?_
    rw [List.mem_filter, List.mem_filter, List.mem_eraseDups, List.mem_eraseDups,
      Table.mem_keys_iff, Table.mem_keys_iff]
    refine and_congr_left fun ho => ?_
    rw [hs other (bne_iff_ne.1 ho)]
  have hsame : (h'.streams.keys.eraseDups.filter (· != stream)).flatMap (h'.inStream queue) =
      (h'.streams.keys.eraseDups.filter (· != stream)).flatMap (h.inStream queue) := by
    refine List.flatMap_congr fun other ho => ?_
    rw [inStream, inStream, hs other (bne_iff_ne.1 (List.mem_filter.1 ho).2)]
  rw [elsewhere, hsame]
  exact hkeys.flatMap_right _

/-- Where only one stream changes, what has left it is what has left the streams. -/
theorem handedOut_change (hs : ∀ other ≠ stream, h'.streams.get? other = h.streams.get? other) :
    h'.handedOut queue ++ h.inStream queue stream ~
      h.handedOut queue ++ h'.inStream queue stream := by
  calc h'.handedOut queue ++ h.inStream queue stream
    _ ~ (h'.inStream queue stream ++ h'.elsewhere queue stream) ++ h.inStream queue stream :=
      (h'.handedOut_perm queue stream).append_right _
    _ ~ h.inStream queue stream ++ (h'.inStream queue stream ++ h'.elsewhere queue stream) :=
      List.perm_append_comm
    _ ~ h.inStream queue stream ++ (h'.elsewhere queue stream ++ h'.inStream queue stream) :=
      List.perm_append_comm.append_left _
    _ ~ h.inStream queue stream ++ (h.elsewhere queue stream ++ h'.inStream queue stream) :=
      ((elsewhere_perm hs).append_right _).append_left _
    _ = (h.inStream queue stream ++ h.elsewhere queue stream) ++ h'.inStream queue stream :=
      (List.append_assoc ..).symm
    _ ~ h.handedOut queue ++ h'.inStream queue stream :=
      (h.handedOut_perm queue stream).symm.append_right _

/-- The same, with what waits in the queue. -/
theorem held_change (hw : h'.waiting queue = h.waiting queue)
    (hs : ∀ other ≠ stream, h'.streams.get? other = h.streams.get? other) :
    h'.held queue ++ h.inStream queue stream ~ h.held queue ++ h'.inStream queue stream := by
  rw [held, held, hw, List.append_assoc, List.append_assoc]
  exact (handedOut_change hs).append_left _

/-! ## Moves -/

/-- A queue that is not there has nothing waiting in it. -/
theorem waiting_of_missing (hq : h.queues.contains queue = false) : h.waiting queue = [] := by
  rw [Table.contains, Option.isSome_eq_false_iff, Option.isNone_iff_eq_none] at hq
  rw [waiting, hq]
  rfl

/-- Handing out from one queue loses no copy from any queue. -/
theorem held_dispatch_perm (h : Hub) (name queue : String) :
    (h.dispatch name).held queue ~ h.held queue := by
  by_cases he : queue = name
  · rw [he]
    exact h.held_dispatch name
  · rw [(Confined.dispatch h name).held_eq (by simpa using he)]

/-- What becomes of a delivery when it is settled. -/
inductive Fate where
  /-- The network is down, and nothing happens. -/
  | kept
  /-- The message is put back into its queue. -/
  | returned
  | concluded
  deriving DecidableEq

/-- What becomes of a delivery when it is settled with a verdict. -/
def fate (h : Hub) (v : Verdict) : Fate :=
  match h.network.fault? with
  | some _ => .kept
  | none => if 0 < h.failingSettlements ∨ v = .requeue then .returned else .concluded

/-- The messages that have been settled for good. -/
def concluded (h : Hub) : List Message :=
  (h.settled.filter (·.verdict ≠ .requeue)).map Settlement.message

/-- How a broker settles a delivery. -/
inductive Settles (h : Hub) (d : Delivery) (v : Verdict) : Fate → Hub → Prop
  | kept : Settles h d v .kept h
  | returned {h' : Hub} (hq : h'.queues = h.queues) (hs : h'.streams = h.streams)
      (ho : h'.opened = h.opened) (hc : h'.concluded = h.concluded) :
      Settles h d v .returned (h'.requeue d)
  | concluded (hv : v ≠ .requeue) :
      Settles h d v .concluded { h with settled := h.settled ++ [⟨d.message, v⟩] }

theorem settles (h : Hub) (d : Delivery) (v : Verdict) :
    Settles h d v (h.fate v) (h.settle d v).1 := by
  rw [fate, settle]
  cases h.network.fault? with
  | some f => exact .kept
  | none =>
    by_cases hf : 0 < h.failingSettlements
    · simp only [hf, true_or, if_true]
      exact .returned rfl rfl rfl rfl
    · by_cases hv : v = .requeue
      · simp only [hf, hv, or_true, if_false, if_true]
        refine .returned rfl rfl rfl ?_
        simp [concluded]
      · simp only [hf, hv, or_self, if_false]
        exact .concluded hv

/-- How the next arrival is taken from a stream. -/
inductive Takes (h : Hub) (stream : Nat) : Hub × Arrival → Prop
  | taken {d : Delivery} {rest : List Delivery} (hs : h.streams.get? stream = some (d :: rest)) :
      Takes h stream ({ h with streams := h.streams.insert stream rest }, .delivery d)
  | waiting : Takes h stream (h, .pending)
  | ended : Takes h stream (h, .ended)

theorem takes_take (h : Hub) (stream : Nat) : Takes h stream (h.take stream) := by
  rw [take]
  split
  case h_1 d rest hs => exact .taken hs
  case h_2 =>
    split
    · exact .waiting
    · exact .ended

/-- What a queue accepts at a move: a message that is published or injected. -/
def accepts (h : Hub) (queue : String) : Move → List Message
  | .publish c exchange key body headers =>
    match (request h c (.publish exchange key body headers)).2, h.route exchange key with
    | .ok (.confirmed .accepted), .ok targets => if queue ∈ targets then [{ body, headers }] else []
    | _, _ => []
  | .inject name body id? =>
    if queue = name then [{ body, headers := .ofList (id?.toList.map (messageIdHeader, ·)) }]
    else []
  | _ => []

/-- What a queue gets back at a move: a message whose settlement fails or puts it back. -/
def returns (h : Hub) (queue : String) : Move → List Message
  | .settle d v => if h.fate v = .returned then (fromQueue queue [d]).map Message.again else []
  | _ => []

/-- What receivers take from the streams of a queue at a move, or drop with a stream. -/
def yields (h : Hub) (queue : String) : Move → List Message
  | .take stream =>
    match (h.take stream).2 with
    | .delivery d => fromQueue queue [d]
    | _ => []
  | .leave stream => h.inStream queue stream
  | _ => []

/-- Two brokers of which the second has lost queues at most, and nothing that waits in the others,
and has the same streams and settlements. -/
structure Spares (h h' : Hub) : Prop where
  waiting : ∀ queue, h'.queues.contains queue = true → h'.waiting queue = h.waiting queue
  streams : h'.streams = h.streams
  opened : h'.opened = h.opened
  settled : h'.settled = h.settled

namespace Spares

theorem of_queues (hq : h'.queues = h.queues) (hs : h'.streams = h.streams)
    (ho : h'.opened = h.opened) (hl : h'.settled = h.settled) : h.Spares h' where
  waiting queue _ := by rw [Hub.waiting, Hub.waiting, hq]
  streams := hs
  opened := ho
  settled := hl

theorem serve {α : Type} {r : Hub × Except Fault α} (c : Nat) (hr : h.Spares r.1) :
    h.Spares (h.serve c r).1 := by
  rw [Hub.serve]
  split
  · exact .of_queues rfl rfl rfl rfl
  · exact hr

theorem dropFeeds (h : Hub) (p : Feed → Bool) : h.Spares (h.dropFeeds p) where
  waiting queue _ := by
    rw [Hub.waiting, Hub.waiting, Hub.dropFeeds, Table.get?_mapValues, Option.map_map]
    rfl
  streams := rfl
  opened := rfl
  settled := rfl

/-- A queue that is declared has nothing waiting in it, or was there before. -/
theorem declareQueue (h : Hub) (q : QueueOptions) : h.Spares (h.declareQueue q) where
  waiting queue _ := by
    rw [Hub.waiting, Hub.waiting, Hub.declareQueue, get?_insertNew]
    cases h.queues.get? queue with
    | some q => rfl
    | none =>
      rw [Option.none_or]
      split <;> rfl
  streams := rfl
  opened := rfl
  settled := rfl

theorem bind (h : Hub) (queue : String) (b : QueueBinding) : h.Spares (h.bind queue b).1 := by
  rw [Hub.bind]
  split
  · exact .of_queues rfl rfl rfl rfl
  split
  · exact .of_queues rfl rfl rfl rfl
  dsimp only
  split
  · exact .of_queues rfl rfl rfl rfl
  · exact .of_queues rfl rfl rfl rfl

end Spares

/-- Two brokers of which the second has lost queues at most, and has the same streams and
settlements. -/
structure Sheds (h h' : Hub) : Prop where
  queues : ∀ queue q, h'.queues.get? queue = some q → h.queues.get? queue = some q
  streams : h'.streams = h.streams
  opened : h'.opened = h.opened
  settled : h'.settled = h.settled

namespace Sheds

theorem refl (h : Hub) : h.Sheds h := ⟨fun _ _ hq => hq, rfl, rfl, rfl⟩

theorem trans {h'' : Hub} (h₁ : h.Sheds h') (h₂ : h'.Sheds h'') : h.Sheds h'' where
  queues queue q hq := h₁.queues queue q (h₂.queues queue q hq)
  streams := h₂.streams.trans h₁.streams
  opened := h₂.opened.trans h₁.opened
  settled := h₂.settled.trans h₁.settled

theorem foldl {α : Type} {f : Hub → α → Hub} (hf : ∀ h a, Sheds h (f h a)) (h : Hub)
    (as : List α) : h.Sheds (as.foldl f h) := by
  induction as generalizing h with
  | nil => exact refl h
  | cons a rest ih => exact (hf h a).trans (ih (f h a))

theorem removeQueue (h : Hub) (name : String) : h.Sheds (h.removeQueue name) where
  queues queue q hq := by
    rw [Hub.removeQueue, Table.get?_erase] at hq
    split at hq
    · cases hq
    · exact hq
  streams := rfl
  opened := rfl
  settled := rfl

theorem removeExchange (h : Hub) (name : String) : h.Sheds (h.removeExchange name) :=
  ⟨fun _ _ hq => hq, rfl, rfl, rfl⟩

theorem resetTransient (h : Hub) : h.Sheds h.resetTransient :=
  (foldl removeQueue h _).trans (foldl removeExchange _ _)

theorem deleteQueue (h : Hub) (name : String) (ifUnused ifEmpty : Bool) :
    h.Sheds (h.deleteQueue name ifUnused ifEmpty).1 := by
  rw [Hub.deleteQueue]
  split
  · exact refl h
  split
  · exact refl h
  split
  · exact refl h
  · exact removeQueue h name

theorem spares (hs : h.Sheds h') : h.Spares h' where
  waiting queue hc := by
    obtain ⟨q, hq⟩ := Option.isSome_iff_exists.1 hc
    rw [Hub.waiting, Hub.waiting, hq, hs.queues queue q hq]
  streams := hs.streams
  opened := hs.opened
  settled := hs.settled

end Sheds

/-- Whether a move is about messages. -/
def Move.carries : Move → Bool
  | .publish .. | .consume .. | .take .. | .leave .. | .settle .. | .inject .. => true
  | _ => false

/-- The other moves leave the messages where they are. -/
theorem spares_step {m : Move} (hm : m.carries = false) : h.Spares (m.step h) := by
  cases m with
  | connect => exact .of_queues rfl rfl rfl rfl
  | hangUp c =>
    have hs := Spares.dropFeeds { h with network := h.network.countClosed } (·.channel == c)
    exact ⟨hs.waiting, hs.streams, hs.opened, hs.settled⟩
  | closeChannel c =>
    have hs := Spares.dropFeeds h (·.channel == c)
    exact ⟨hs.waiting, hs.streams, hs.opened, hs.settled⟩
  | declareExchange c x => exact .serve c (.of_queues rfl rfl rfl rfl)
  | deleteExchange c name => exact .serve c (.of_queues rfl rfl rfl rfl)
  | declareQueue c q => exact .serve c (.declareQueue h q)
  | bindQueue c name b => exact .serve c (.bind h name b)
  | deleteQueue c name ifUnused ifEmpty =>
    exact .serve c (Sheds.deleteQueue h name ifUnused ifEmpty).spares
  | failSettlements n => exact .of_queues rfl rfl rfl rfl
  | dropConsumers => exact .dropFeeds h _
  | resetTransient => exact (Sheds.resetTransient h).spares
  | network n => exact .of_queues rfl rfl rfl rfl
  | publish | consume | take | leave | settle | inject => cases hm

/-! ## What a move does -/

/-- Two brokers, the second of which has got some messages for a queue more and has given others
away. A queue that was not there before has nothing waiting in it. -/
structure Flow (h h' : Hub) (queue : String) (ins outs : List Message) : Prop where
  held : h.queues.contains queue = true → h'.queues.contains queue = true →
    h'.held queue ++ outs ~ h.held queue ++ ins
  fresh : h.queues.contains queue = false → h'.waiting queue = []

namespace Flow

variable {ins outs : List Message}

theorem of_spares (hs : h.Spares h') (queue : String) : Flow h h' queue [] [] where
  held _ hc := by
    rw [Hub.held, Hub.held, hs.waiting queue hc, handedOut_of_streams hs.streams]
  fresh hq := by
    cases hc : h'.queues.contains queue with
    | true => rw [hs.waiting queue hc, waiting_of_missing hq]
    | false => exact waiting_of_missing hc

theorem refl (h : Hub) (queue : String) : Flow h h queue [] [] :=
  of_spares (.of_queues rfl rfl rfl rfl) queue

/-- A queue that has neither come nor gone. -/
theorem of_contains (hc : h'.queues.contains queue = h.queues.contains queue)
    (hh : h.queues.contains queue = true → h'.held queue ++ outs ~ h.held queue ++ ins) :
    Flow h h' queue ins outs where
  held hq _ := hh hq
  fresh hq := waiting_of_missing (hc.trans hq)

/-- A queue that is one of those that receive a message. -/
theorem of_receives {targets : List String} {m : Message} (hr : Receives h h' targets m)
    (queue : String) : Flow h h' queue (if queue ∈ targets then [m] else []) [] := by
  refine of_contains (hr.contains_eq queue) fun hq => ?_
  rw [List.append_nil]
  split
  case isTrue ht => exact (hr.received queue ht hq).trans (List.perm_append_singleton m _).symm
  case isFalse ht => rw [hr.held_eq ht, List.append_nil]

theorem publish (h : Hub) (queue : String) (c : Nat) (exchange key : String) (body : Bytes)
    (headers : Headers) :
    Flow h (request h c (.publish exchange key body headers)).1 queue
      (h.accepts queue (.publish c exchange key body headers)) [] := by
  have hposted := posted_request h c exchange key body headers
  rw [accepts]
  generalize request h c (.publish exchange key body headers) = r at hposted
  cases hposted with
  | failed hf => exact refl h queue
  | returned hr => exact refl h queue
  | published hp =>
    obtain ⟨targets, hr, -, hreceives⟩ := hp
    rw [hr]
    exact of_receives hreceives queue

theorem inject (h : Hub) (queue name : String) (body : Bytes) (id? : Option String) :
    Flow h (h.inject name body id?) queue (h.accepts queue (.inject name body id?)) [] := by
  have hflow := of_receives (receives_enqueue h name
    { body, headers := .ofList (id?.toList.map (messageIdHeader, ·)) }) queue
  simp only [List.mem_singleton] at hflow
  exact hflow

/-- A new consumer is handed what waits, through a stream of its own that is empty before. -/
theorem consume (hn : ∀ stream, h.streams.contains stream = true → stream ≤ h.opened)
    (queue : String) (c : Nat) (name : String) : Flow h (h.consume c name).1 queue [] [] := by
  rw [Hub.consume]
  split
  case isFalse => exact refl h queue
  let put (q : Queue) : Queue := { q with feeds := q.feeds ++ [⟨c, h.opened + 1⟩] }
  let h₁ : Hub := { h with
    opened := h.opened + 1
    streams := h.streams.insert (h.opened + 1) []
    queues := h.queues.modify name put }
  have hget : h₁.queues.get? queue =
      if queue = name then (h.queues.get? queue).map put else h.queues.get? queue :=
    Table.get?_modify h.queues name queue put
  have hcontains : h₁.queues.contains queue = h.queues.contains queue := by
    rw [Table.contains, Table.contains, hget]
    split
    · exact Option.isSome_map
    · rfl
  have hwaiting : h₁.waiting queue = h.waiting queue := by
    rw [waiting, waiting, hget]
    split
    · rw [Option.map_map]
      rfl
    · rfl
  have hnew : h.streams.get? (h.opened + 1) = none := by
    rw [← Option.not_isSome_iff_eq_none]
    exact fun hs => absurd (hn _ hs) (Nat.not_succ_le_self _)
  have hchange : h₁.held queue ++ h.inStream queue (h.opened + 1) ~
      h.held queue ++ h₁.inStream queue (h.opened + 1) :=
    held_change hwaiting fun other ho => by rw [Table.get?_insert, if_neg ho]
  have hempty : h₁.inStream queue (h.opened + 1) = [] :=
    inStream_of_get? (h := h₁) ((Table.get?_insert _ _ _ _).trans (if_pos rfl))
  rw [inStream_of_none hnew, hempty, List.append_nil, List.append_nil] at hchange
  refine of_contains (((Confined.dispatch h₁ name).contains_eq queue).trans hcontains) fun _ => ?_
  rw [List.append_nil, List.append_nil]
  exact (held_dispatch_perm h₁ name queue).trans hchange

theorem take (h : Hub) (queue : String) (stream : Nat) :
    Flow h (h.take stream).1 queue [] (h.yields queue (.take stream)) := by
  have htakes := h.takes_take stream
  rw [yields]
  generalize h.take stream = r at htakes
  cases htakes with
  | waiting => exact refl h queue
  | ended => exact refl h queue
  | @taken d rest hs =>
    let h' : Hub := { h with streams := h.streams.insert stream rest }
    have hs' : h'.streams.get? stream = some rest := by rw [Table.get?_insert, if_pos rfl]
    have hchange : h'.held queue ++ h.inStream queue stream ~
        h.held queue ++ h'.inStream queue stream :=
      held_change rfl fun other ho => by rw [Table.get?_insert, if_neg ho]
    refine of_contains rfl fun _ => ?_
    -- the rest of the stream is the same before and after
    rw [inStream_of_get? hs, inStream_of_get? hs', fromQueue_cons,
      ← List.append_assoc] at hchange
    rw [List.append_nil]
    exact (List.perm_append_right_iff _).1 hchange

theorem leave (h : Hub) (queue : String) (stream : Nat) :
    Flow h (h.leave stream) queue [] (h.yields queue (.leave stream)) := by
  have hgone : (h.leave stream).streams.get? stream = none := by
    rw [Hub.leave, Table.get?_erase, if_pos rfl]
  have hchange : (h.leave stream).held queue ++ h.inStream queue stream ~
      h.held queue ++ (h.leave stream).inStream queue stream :=
    held_change rfl fun other ho => by rw [Hub.leave, Table.get?_erase, if_neg ho]
  rw [inStream_of_none hgone] at hchange
  exact of_contains rfl fun _ => hchange

theorem settle (h : Hub) (queue : String) (d : Delivery) (v : Verdict) :
    Flow h (h.settle d v).1 queue (h.returns queue (.settle d v)) [] := by
  have hsettles := h.settles d v
  rw [returns]
  generalize h.fate v = fate at hsettles
  generalize (h.settle d v).1 = h' at hsettles
  cases hsettles with
  | kept => exact refl h queue
  | concluded hv =>
    rw [if_neg (by decide)]
    exact of_contains rfl fun _ => .refl _
  | @returned h₀ hq hs ho hc =>
    have hflow := of_receives (receives_requeue h₀ d) queue
    have hheld : h₀.held queue = h.held queue := by
      rw [Hub.held, Hub.held, Hub.waiting, Hub.waiting, hq, handedOut_of_streams hs]
    have hins : (if queue ∈ [d.queue] then [d.message.again] else []) =
        (fromQueue queue [d]).map Message.again := by
      by_cases he : d.queue = queue
      · simp [fromQueue_of_queue he, he]
      · simp [fromQueue_of_ne he, Ne.symm he]
    rw [if_pos rfl, ← hins]
    exact ⟨fun hc => hheld ▸ hflow.held (hq ▸ hc), fun hc => hflow.fresh (hq ▸ hc)⟩

end Flow

/-- No stream is held that is still to be opened. -/
def Numbered (h : Hub) : Prop := ∀ stream, h.streams.contains stream = true → stream ≤ h.opened

/-- Every move gives a queue what it accepts or gets back, and takes what receivers take or drop. -/
theorem flow_step (hn : h.Numbered) (queue : String) (m : Move) :
    Flow h (m.step h) queue (h.accepts queue m ++ h.returns queue m) (h.yields queue m) := by
  cases m with
  | publish c exchange key body headers =>
    exact (List.append_nil _).symm ▸ Flow.publish h queue c exchange key body headers
  | inject name body id? =>
    exact (List.append_nil _).symm ▸ Flow.inject h queue name body id?
  | consume c name =>
    have hstep : (Move.consume c name).step h = (h.serve c (h.consume c name)).1 := rfl
    rw [hstep]
    rcases h.fault?_cases c with hf | hf
    · rw [serve_of_up hf]
      exact .consume hn queue c name
    · rw [serve_of_fault hf]
      exact .refl h queue
  | take stream => exact .take h queue stream
  | leave stream => exact .leave h queue stream
  | settle d v => exact .settle h queue d v
  | _ => exact .of_spares (spares_step rfl) queue

/-! ## What a move does to the streams -/

/-- The message that a move settles for good. -/
def concludes (h : Hub) : Move → List Message
  | .settle d v => if h.fate v = .concluded then [d.message] else []
  | _ => []

/-- Two brokers with the same streams, which have opened as many and concluded the same. -/
structure Level (h h' : Hub) : Prop where
  keys : h'.streams.keys = h.streams.keys
  opened : h'.opened = h.opened
  concluded : h'.concluded = h.concluded

namespace Level

theorem refl (h : Hub) : h.Level h := ⟨rfl, rfl, rfl⟩

theorem trans {h'' : Hub} (h₁ : h.Level h') (h₂ : h'.Level h'') : h.Level h'' :=
  ⟨h₂.keys.trans h₁.keys, h₂.opened.trans h₁.opened, h₂.concluded.trans h₁.concluded⟩

theorem contains_iff (hl : h.Level h') (stream : Nat) :
    h'.streams.contains stream = true ↔ h.streams.contains stream = true := by
  rw [Table.contains, Table.contains, ← Table.mem_keys_iff, ← Table.mem_keys_iff, hl.keys]

theorem of_spares (hs : h.Spares h') : h.Level h' :=
  ⟨by rw [hs.streams], hs.opened, by rw [Hub.concluded, Hub.concluded, hs.settled]⟩

theorem dispatch (h : Hub) (name : String) : h.Level (h.dispatch name) where
  keys := (Confined.dispatch h name).streams
  opened := by
    rw [Hub.dispatch]
    split <;> rfl
  concluded := by rw [Hub.concluded, Hub.concluded, (dispatch_alike h name).settled]

theorem enqueue (h : Hub) (name : String) (m : Message) : h.Level (h.enqueue name m) :=
  have hl := dispatch { h with queues := h.queues.modify name fun q =>
    { q with messages := q.messages ++ [m] } } name
  ⟨hl.keys, hl.opened, hl.concluded⟩

theorem requeue (h : Hub) (d : Delivery) : h.Level (h.requeue d) :=
  have hl := dispatch { h with queues := h.queues.modify d.queue fun q =>
    { q with messages := d.message.again :: q.messages } } d.queue
  ⟨hl.keys, hl.opened, hl.concluded⟩

theorem foldl {α : Type} {f : Hub → α → Hub} (hf : ∀ h a, Level h (f h a)) (h : Hub)
    (as : List α) : h.Level (as.foldl f h) := by
  induction as generalizing h with
  | nil => exact refl h
  | cons a rest ih => exact (hf h a).trans (ih (f h a))

theorem serve {α : Type} {r : Hub × Except Fault α} (c : Nat) (hr : h.Level r.1) :
    h.Level (h.serve c r).1 := by
  rw [Hub.serve]
  split
  · exact refl h
  · exact hr

theorem publish (h : Hub) (exchange key : String) (body : Bytes) (headers : Headers) :
    h.Level (h.publish exchange key body headers).1 := by
  rw [Hub.publish]
  split
  · exact refl h
  · exact refl h
  · exact foldl (fun h name => enqueue h name _) h _

theorem take (h : Hub) (stream : Nat) : h.Level (h.take stream).1 := by
  have htakes := h.takes_take stream
  generalize h.take stream = r at htakes
  cases htakes with
  | waiting => exact refl h
  | ended => exact refl h
  | taken hs => exact ⟨Table.keys_insert_of_get? h.streams hs, rfl, rfl⟩

end Level

/-- Which streams are held, and what is concluded, after a move. -/
inductive Outcome (h : Hub) : Move → Hub → Prop
  | level {m : Move} {h' : Hub} (hl : h.Level h') (hm : h.concludes m = []) : Outcome h m h'
  | opened {c : Nat} {name : String} {h' : Hub} (ho : h'.opened = h.opened + 1)
      (hs : ∀ stream, h'.streams.contains stream = true ↔
        stream = h.opened + 1 ∨ h.streams.contains stream = true)
      (hc : h'.concluded = h.concluded) : Outcome h (.consume c name) h'
  | dropped {stream : Nat} : Outcome h (.leave stream) (h.leave stream)
  | concluded {d : Delivery} {v : Verdict} {h' : Hub} (hf : h.fate v = .concluded)
      (hk : h'.streams = h.streams) (ho : h'.opened = h.opened)
      (hc : h'.concluded = h.concluded ++ [d.message]) : Outcome h (.settle d v) h'

theorem outcome_step (h : Hub) (m : Move) : Outcome h m (m.step h) := by
  cases m with
  | publish c exchange key body headers =>
    exact .level (.serve c (.publish h exchange key body headers)) rfl
  | inject name body id? => exact .level (.enqueue h name _) rfl
  | take stream => exact .level (.take h stream) rfl
  | leave stream => exact .dropped
  | consume c name =>
    have hstep : (Move.consume c name).step h = (h.serve c (h.consume c name)).1 := rfl
    rw [hstep, Hub.serve, Hub.consume]
    split
    · exact .level (.refl h) rfl
    split
    case isFalse => exact .level (.refl h) rfl
    have hl := Level.dispatch { h with
      opened := h.opened + 1
      streams := h.streams.insert (h.opened + 1) []
      queues := h.queues.modify name fun q => { q with feeds := q.feeds ++ [⟨c, h.opened + 1⟩] } }
      name
    refine .opened hl.opened (fun stream => (hl.contains_iff stream).trans ?_) hl.concluded
    rw [Table.contains, Table.get?_insert]
    split
    case isTrue he => simp [he]
    case isFalse he => simp [he, Table.contains]
  | settle d v =>
    have hsettles := h.settles d v
    have hstep : (Move.settle d v).step h = (h.settle d v).1 := rfl
    rw [hstep]
    generalize hf : h.fate v = fate at hsettles
    generalize (h.settle d v).1 = h' at hsettles
    cases hsettles with
    | kept => exact .level (.refl h) (by rw [concludes, hf, if_neg (by decide)])
    | @returned h₀ hq hs ho hc =>
      have hl := Level.requeue h₀ d
      exact .level ⟨hl.keys.trans (by rw [hs]), hl.opened.trans ho, hl.concluded.trans hc⟩
        (by rw [concludes, hf, if_neg (by decide)])
    | concluded hv =>
      refine .concluded hf rfl rfl ?_
      simp [Hub.concluded, hv]
  | _ => exact .level (.of_spares (spares_step rfl)) rfl

theorem numbered_step (hn : h.Numbered) (m : Move) : (m.step h).Numbered := by
  have houtcome := h.outcome_step m
  intro stream hs
  generalize m.step h = h' at houtcome hs
  cases houtcome with
  | level hl hm => exact hl.opened ▸ hn stream ((hl.contains_iff stream).1 hs)
  | opened ho hk hc =>
    rw [ho]
    rcases (hk stream).1 hs with he | hold
    · exact Nat.le_of_eq he
    · exact Nat.le_succ_of_le (hn stream hold)
  | @dropped left =>
    refine hn stream ?_
    rw [Table.contains, leave, Table.get?_erase] at hs
    split at hs
    · cases hs
    · exact hs
  | concluded hf hk ho hc => exact ho ▸ hn stream (hk ▸ hs)

/-- A stream is held until it is dropped. -/
theorem contains_step {m : Move} (hm : m ≠ .leave stream) (hs : h.streams.contains stream = true) :
    (m.step h).streams.contains stream = true := by
  have houtcome := h.outcome_step m
  generalize m.step h = h' at houtcome
  cases houtcome with
  | level hl hm => exact (hl.contains_iff stream).2 hs
  | opened ho hk hc => exact (hk stream).2 (.inr hs)
  | @dropped left =>
    have hne : stream ≠ left := fun he => hm (he ▸ rfl)
    rwa [Table.contains, leave, Table.get?_erase, if_neg hne]
  | concluded hf hk ho hc => rwa [hk]

theorem concluded_step (h : Hub) (m : Move) :
    (m.step h).concluded = h.concluded ++ h.concludes m := by
  have houtcome := h.outcome_step m
  generalize m.step h = h' at houtcome
  cases houtcome with
  | level hl hm => rw [hl.concluded, hm, List.append_nil]
  | opened ho hk hc => exact hc.trans (List.append_nil _).symm
  | dropped => exact (List.append_nil _).symm
  | concluded hf hk ho hc => rw [hc, concludes, if_pos hf]

end Hub

end Reconnect.Rehearsal
