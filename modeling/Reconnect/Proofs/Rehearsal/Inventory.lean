import Reconnect.Proofs.Rehearsal.Circulation

/-!
# An inventory of messages

Beside a broker it is written down which deliveries receivers have taken and not settled, and, for
each queue since it was declared, which messages the queue has accepted, which have been settled for
good and which receivers have dropped unsettled (`Inventory`). Receivers may settle late or twice
and drop streams and deliveries, and the broker may lose its network, its channels and its
consumers.

The inventory balances (`accounted_run`): whatever a queue has accepted waits there, lies in a
stream, is with a receiver, has been settled for good or has been dropped by a receiver, each copy
in one place. So nothing is lost as long as receivers drop nothing that is unsettled (`Careful`).
What they do drop the broker does not put back, not even after a settlement that failed for want of
a network (`lost_in_outage`).
-/

namespace Reconnect.Rehearsal

open Broker Hub
open scoped List

/-- A delivery that a receiver has taken from a stream. -/
structure Taken where
  stream : Nat
  delivery : Delivery
  deriving DecidableEq

/-- What has become of the messages of a queue since it was declared. -/
structure Account where
  /-- What has been published or injected into the queue. -/
  accepted : List Message := []
  /-- What was in streams or with receivers when the queue was declared, and what is settled by
  others than those who have it. -/
  strays : List Message := []
  /-- What has been settled and not put back. -/
  concluded : List Message := []
  /-- What receivers have dropped before it was settled. -/
  discarded : List Message := []

/-- An account with further entries. -/
def Account.add (a entry : Account) : Account where
  accepted := a.accepted ++ entry.accepted
  strays := a.strays ++ entry.strays
  concluded := a.concluded ++ entry.concluded
  discarded := a.discarded ++ entry.discarded

/-- A broker, the deliveries that receivers have and have not settled, and the accounts of the
queues. -/
structure Inventory where
  hub : Hub := {}
  taken : List Taken := []
  account : String → Account := fun _ => {}

namespace Inventory

/-- What happens to a broker and the receivers of its streams. -/
inductive Act where
  /-- A move of the broker. A delivery that is settled by one need not be with a receiver. -/
  | move (m : Hub.Move)
  /-- A receiver settles a delivery that it has taken. -/
  | settle (place : Nat) (v : Verdict)
  /-- A receiver drops a delivery that it has taken. -/
  | discard (place : Nat)
  deriving DecidableEq

variable {i : Inventory} {queue : String} {a : Act}

/-- The delivery at a place among those that are taken. -/
def takenAt? (i : Inventory) (place : Nat) : Option Delivery := i.taken[place]?.map Taken.delivery

/-- The messages from a queue that receivers have and have not settled. -/
def unsettled (i : Inventory) (queue : String) : List Message :=
  fromQueue queue (i.taken.map Taken.delivery)

/-- What is asked of the broker at an act. -/
def asks (i : Inventory) : Act → Option Hub.Move
  | .move m => some m
  | .settle place v => (i.takenAt? place).map (.settle · v)
  | .discard _ => none

/-- The broker after an act. -/
def hubAfter (i : Inventory) (a : Act) : Hub :=
  match i.asks a with
  | some m => m.step i.hub
  | none => i.hub

/-- The deliveries that receivers have after an act. -/
def takenAfter (i : Inventory) : Act → List Taken
  | .move (.take stream) =>
    match (i.hub.take stream).2 with
    | .delivery d => i.taken ++ [⟨stream, d⟩]
    | _ => i.taken
  | .move _ => i.taken
  | .settle place v => if i.hub.fate v = .kept then i.taken else i.taken.eraseIdx place
  | .discard place => i.taken.eraseIdx place

/-- What an act adds to the account of a queue. -/
def entry (i : Inventory) (queue : String) : Act → Account
  | .move (.settle d v) =>
    { strays := if i.hub.fate v = .kept then [] else fromQueue queue [d]
      concluded := if i.hub.fate v = .concluded then fromQueue queue [d] else [] }
  | .move (.leave stream) => { discarded := i.hub.inStream queue stream }
  | .move m => { accepted := i.hub.accepts queue m }
  | .settle place v =>
    { concluded :=
        if i.hub.fate v = .concluded then fromQueue queue (i.takenAt? place).toList else [] }
  | .discard place => { discarded := fromQueue queue (i.takenAt? place).toList }

/-- The inventory after an act. The account of a queue is opened when the queue is declared. -/
def step (i : Inventory) (a : Act) : Inventory where
  hub := i.hubAfter a
  taken := i.takenAfter a
  account queue :=
    if i.hub.queues.contains queue then (i.account queue).add (i.entry queue a)
    else
      { strays := (i.hubAfter a).handedOut queue ++
          fromQueue queue ((i.takenAfter a).map Taken.delivery) }

/-- The inventory of a broker that starts with nothing, after some acts. -/
def run (acts : List Act) : Inventory := acts.foldl step {}

/-- The broker makes a move or stays as it is. -/
theorem hubAfter_cases {P : Hub → Prop} (hnone : i.asks a = none → P i.hub)
    (hsome : ∀ m, i.asks a = some m → P (m.step i.hub)) : P (i.hubAfter a) := by
  rw [hubAfter]
  cases ha : i.asks a with
  | none => exact hnone ha
  | some m => exact hsome m ha

/-! ## Balance -/

/-- How many copies there are of a message, whether they have been handed out before or not. -/
def tally (n : Message) (messages : List Message) : Nat := (messages.map Message.plain).count n

section Tally

variable (n : Message) (messages more : List Message)

@[simp] theorem tally_nil : tally n [] = 0 := rfl

@[simp] theorem tally_append : tally n (messages ++ more) = tally n messages + tally n more := by
  rw [tally, List.map_append, List.count_append]
  rfl

@[simp] theorem tally_again : tally n (messages.map Message.again) = tally n messages := by
  rw [tally, List.map_map]
  rfl

theorem tally_of_perm {messages more : List Message} (h : messages ~ more) :
    tally n messages = tally n more :=
  (h.map _).count_eq n

end Tally

/-- The account of a queue balances: each copy that has come in is at the broker, with a receiver,
settled or dropped. -/
def Balances (i : Inventory) (queue : String) : Prop :=
  ((i.account queue).accepted ++ (i.account queue).strays).map Message.plain ~
    (i.hub.held queue ++ i.unsettled queue ++ (i.account queue).concluded ++
      (i.account queue).discarded).map Message.plain

theorem balances_iff : i.Balances queue ↔ ∀ n,
    tally n (i.account queue).accepted + tally n (i.account queue).strays =
      tally n (i.hub.held queue) + tally n (i.unsettled queue) +
        tally n (i.account queue).concluded + tally n (i.account queue).discarded := by
  rw [Balances, List.perm_iff_count]
  refine forall_congr' fun n => ?_
  rw [← tally, ← tally]
  simp only [tally_append]

/-- What is settled is put back, or concluded, or the network is down. -/
theorem tally_returns (h : Hub) (queue : String) (d : Delivery) (v : Verdict) (n : Message) :
    tally n (h.returns queue (.settle d v)) +
        tally n (if h.fate v = .concluded then fromQueue queue [d] else []) =
      tally n (if h.fate v = .kept then [] else fromQueue queue [d]) := by
  rw [returns]
  cases h.fate v with
  | kept => simp
  | returned => simp
  | concluded => simp

/-- A delivery that is no longer with its receiver was there before. -/
theorem tally_eraseIdx (i : Inventory) (queue : String) (place : Nat) (n : Message) :
    tally n (i.unsettled queue) = tally n (fromQueue queue (i.takenAt? place).toList) +
      tally n (fromQueue queue ((i.taken.eraseIdx place).map Taken.delivery)) := by
  rw [unsettled, takenAt?]
  by_cases hp : place < i.taken.length
  · rw [List.getElem?_eq_getElem hp]
    have hperm := (List.getElem_cons_eraseIdx_perm hp).map Taken.delivery
    rw [← tally_of_perm n (fromQueue_perm hperm queue)]
    exact (congrArg (tally n) (fromQueue_cons queue _ _)).trans (tally_append n _ _)
  · have hle : i.taken.length ≤ place := Nat.le_of_not_lt hp
    rw [List.getElem?_eq_none hle, List.eraseIdx_of_length_le hle]
    simp

/-- What leaves a stream is with its receiver then. -/
theorem unsettled_take (i : Inventory) (queue : String) (stream : Nat) :
    fromQueue queue ((i.takenAfter (.move (.take stream))).map Taken.delivery) =
      i.unsettled queue ++ i.hub.yields queue (.take stream) := by
  rw [takenAfter, yields, unsettled]
  cases (i.hub.take stream).2 with
  | delivery d => rw [List.map_append, fromQueue_append]; rfl
  | _ => exact (List.append_nil _).symm

/-- An act takes as many copies of each message of a queue from the broker, from receivers and from
outside as it brings to them. -/
def Shifts (i : Inventory) (queue : String) (a : Act) : Prop :=
  ∀ n, tally n ((i.hubAfter a).held queue) +
      tally n (fromQueue queue ((i.takenAfter a).map Taken.delivery)) +
      tally n (i.entry queue a).concluded + tally n (i.entry queue a).discarded =
    tally n (i.hub.held queue) + tally n (i.unsettled queue) +
      tally n (i.entry queue a).accepted + tally n (i.entry queue a).strays

theorem shifts_move (hn : i.hub.Numbered) (hq : i.hub.queues.contains queue = true) {m : Hub.Move}
    (hq' : (m.step i.hub).queues.contains queue = true) : i.Shifts queue (.move m) := by
  intro n
  have hflow := tally_of_perm n ((flow_step hn queue m).held hq hq')
  simp only [tally_append] at hflow
  cases m with
  | take stream =>
    rw [unsettled_take, tally_append]
    simp only [hubAfter, asks, entry, accepts, returns, tally_nil] at hflow ⊢
    omega
  | leave stream =>
    simp only [hubAfter, asks, takenAfter, entry, accepts, returns, yields, tally_nil,
      ← unsettled.eq_def] at hflow ⊢
    omega
  | settle d v =>
    have hsettled := tally_returns i.hub queue d v n
    simp only [hubAfter, asks, takenAfter, entry, accepts, yields, tally_nil,
      ← unsettled.eq_def] at hflow ⊢
    omega
  | _ =>
    simp only [hubAfter, asks, takenAfter, entry, returns, yields, tally_nil,
      ← unsettled.eq_def] at hflow ⊢
    omega

/-- A delivery leaves its receiver when it is settled, unless the network is down. -/
theorem tally_settled (i : Inventory) (queue : String) (place : Nat) (v : Verdict) (n : Message) :
    tally n (fromQueue queue ((i.takenAfter (.settle place v)).map Taken.delivery)) +
        tally n (if i.hub.fate v = .kept then [] else
          fromQueue queue (i.takenAt? place).toList) =
      tally n (i.unsettled queue) := by
  have herase := tally_eraseIdx i queue place n
  rw [takenAfter]
  split
  · rfl
  · omega

theorem shifts_settle (hn : i.hub.Numbered) (hq : i.hub.queues.contains queue = true)
    {place : Nat} {v : Verdict}
    (hq' : (i.hubAfter (.settle place v)).queues.contains queue = true) :
    i.Shifts queue (.settle place v) := by
  intro n
  have htaken := tally_settled i queue place v n
  simp only [hubAfter, asks, entry, tally_nil] at hq' ⊢
  cases hd : i.takenAt? place with
  | none =>
    simp only [hd, Option.map_none, Option.toList_none, fromQueue_nil, ite_self, tally_nil]
      at htaken ⊢
    omega
  | some d =>
    simp only [hd, Option.map_some, Option.toList_some] at htaken hq' ⊢
    -- the broker puts back what is neither kept nor concluded
    have hsettled := tally_returns i.hub queue d v n
    have hflow := tally_of_perm n ((flow_step hn queue (.settle d v)).held hq hq')
    simp only [tally_append, accepts, yields, tally_nil] at hflow
    omega

theorem shifts_act (hn : i.hub.Numbered) (a : Act) (hq : i.hub.queues.contains queue = true)
    (hq' : (i.hubAfter a).queues.contains queue = true) : i.Shifts queue a := by
  cases a with
  | move m => exact shifts_move hn hq hq'
  | settle place v => exact shifts_settle hn hq hq'
  | discard place =>
    intro n
    have herase := tally_eraseIdx i queue place n
    simp only [hubAfter, asks, takenAfter, entry, tally_nil]
    omega

/-- What is known of an inventory of which nothing is left out. -/
structure Sound (i : Inventory) : Prop where
  numbered : i.hub.Numbered
  balanced : ∀ queue, i.hub.queues.contains queue = true → i.Balances queue
  /-- Each message that is settled for good stands in the log of the broker. -/
  recorded : ∀ queue, (i.account queue).concluded.Sublist i.hub.concluded

theorem fromQueue_sublist (queue : String) (d : Delivery) :
    (fromQueue queue [d]).Sublist [d.message] :=
  List.filter_sublist.map Delivery.message

theorem recorded_entry (i : Inventory) (queue : String) (a : Act) :
    ∃ messages, (i.hubAfter a).concluded = i.hub.concluded ++ messages ∧
      (i.entry queue a).concluded.Sublist messages := by
  -- a settlement is logged for one queue and concluded for that one alone
  have hsettle : ∀ d v, (if i.hub.fate v = .concluded then fromQueue queue [d] else []).Sublist
      (i.hub.concludes (.settle d v)) := by
    intro d v
    rw [concludes]
    split
    · exact fromQueue_sublist queue d
    · exact .refl _
  cases a with
  | move m =>
    refine ⟨i.hub.concludes m, concluded_step i.hub m, ?_⟩
    cases m with
    | settle d v => exact hsettle d v
    | _ => exact List.nil_sublist _
  | settle place v =>
    simp only [hubAfter, asks, entry]
    cases i.takenAt? place with
    | some d => exact ⟨_, concluded_step i.hub _, hsettle d v⟩
    | none =>
      refine ⟨[], (List.append_nil _).symm, ?_⟩
      rw [Option.toList_none, fromQueue_nil, ite_self]
  | discard place => exact ⟨[], (List.append_nil _).symm, .refl _⟩

/-- A queue that was not there before has nothing waiting in it. -/
theorem waiting_hubAfter (hn : i.hub.Numbered) (a : Act)
    (hq : i.hub.queues.contains queue = false) : (i.hubAfter a).waiting queue = [] :=
  hubAfter_cases (P := fun h => h.waiting queue = []) (fun _ => waiting_of_missing hq)
    fun m _ => (flow_step hn queue m).fresh hq

theorem numbered_hubAfter (hn : i.hub.Numbered) (a : Act) : (i.hubAfter a).Numbered :=
  hubAfter_cases (fun _ => hn) fun m _ => numbered_step hn m

theorem Sound.step (hi : i.Sound) (a : Act) : (i.step a).Sound where
  numbered := numbered_hubAfter hi.numbered a
  balanced queue hq' := by
    rw [balances_iff]
    intro n
    cases hq : i.hub.queues.contains queue with
    | true =>
      have hbefore := balances_iff.1 (hi.balanced queue hq) n
      have hact := shifts_act hi.numbered a hq hq' n
      simp only [Inventory.step, hq, if_true, Account.add, tally_append, unsettled]
        at hbefore hact ⊢
      omega
    | false =>
      -- the account is opened with what is out
      have hwaiting := waiting_hubAfter hi.numbered a hq
      simp only [Inventory.step, hq, Hub.held, hwaiting, unsettled, Bool.false_eq_true, if_false,
        List.nil_append, tally_append, tally_nil]
      omega
  recorded queue := by
    obtain ⟨messages, hc, he⟩ := i.recorded_entry queue a
    simp only [Inventory.step, hc]
    split
    · exact (hi.recorded queue).append he
    · exact List.nil_sublist _

theorem sound_empty : Sound {} where
  numbered _ hs := by cases hs
  balanced _ hq := by cases hq
  recorded _ := List.nil_sublist _

theorem Sound.foldl (hi : i.Sound) (acts : List Act) : (acts.foldl Inventory.step i).Sound := by
  induction acts generalizing i with
  | nil => exact hi
  | cons a rest ih => exact ih (hi.step a)

/-! ## Receivers that drop nothing unsettled -/

/-- The messages from a queue that a receiver drops unsettled at an act, with a delivery or with the
stream of some. -/
def surrenders (i : Inventory) (queue : String) : Act → List Message
  | .move (.leave stream) =>
    i.hub.inStream queue stream ++
      fromQueue queue ((i.taken.filter (·.stream == stream)).map Taken.delivery)
  | .discard place => fromQueue queue (i.takenAt? place).toList
  | _ => []

/-- Whether receivers drop nothing unsettled from a queue while acts follow each other. -/
def Careful (queue : String) : Inventory → List Act → Prop
  | _, [] => True
  | i, a :: rest => i.surrenders queue a = [] ∧ Careful queue (i.step a) rest

instance decidableCareful (queue : String) :
    (acts : List Act) → (i : Inventory) → Decidable (Careful queue i acts)
  | [], _ => .isTrue trivial
  | a :: rest, i => @instDecidableAnd _ _ _ (decidableCareful queue rest (i.step a))

/-- Nothing from a queue has been dropped unsettled, and what is with a receiver has come from a
stream that is held. -/
structure Keeps (i : Inventory) (queue : String) : Prop where
  discarded : (i.account queue).discarded = []
  held : ∀ t ∈ i.taken, t.delivery.queue = queue → i.hub.streams.contains t.stream = true

theorem contains_hubAfter {stream : Nat} (ha : a ≠ .move (.leave stream))
    (hs : i.hub.streams.contains stream = true) :
    (i.hubAfter a).streams.contains stream = true := by
  refine hubAfter_cases (P := fun h => h.streams.contains stream = true) (fun _ => hs) ?_
  intro m hm
  refine contains_step ?_ hs
  rintro rfl
  -- a stream is dropped by that very act, not by a settlement
  cases a with
  | move m =>
    cases hm
    exact ha rfl
  | settle place v =>
    obtain ⟨d, -, hd⟩ := Option.map_eq_some_iff.1 hm
    cases hd
  | discard place => cases hm

/-- A delivery that a receiver has has just been taken from a stream that is held, or was there. -/
theorem mem_takenAfter {t : Taken} (ht : t ∈ i.takenAfter a) :
    t ∈ i.taken ∨ a = .move (.take t.stream) ∧ i.hub.streams.contains t.stream = true := by
  cases a with
  | move m =>
    cases m with
    | take stream =>
      have htakes := i.hub.takes_take stream
      rw [takenAfter] at ht
      generalize i.hub.take stream = r at htakes ht
      cases htakes with
      | waiting => exact .inl ht
      | ended => exact .inl ht
      | taken hs =>
        refine (List.mem_append.1 ht).imp_right fun hnew => ?_
        rw [List.mem_singleton.1 hnew, Table.contains, hs]
        exact ⟨rfl, rfl⟩
    | _ => exact .inl ht
  | settle place v =>
    rw [takenAfter] at ht
    split at ht
    · exact .inl ht
    · exact .inl (List.mem_of_mem_eraseIdx ht)
  | discard place => exact .inl (List.mem_of_mem_eraseIdx ht)

theorem discarded_entry (ha : i.surrenders queue a = []) : (i.entry queue a).discarded = [] := by
  cases a with
  | move m =>
    cases m with
    | leave stream => exact (List.append_eq_nil_iff.1 ha).1
    | _ => rfl
  | settle place v => rfl
  | discard place => exact ha

theorem Keeps.step (hk : i.Keeps queue) (ha : i.surrenders queue a = []) :
    (i.step a).Keeps queue where
  discarded := by
    simp only [Inventory.step]
    split
    · rw [Account.add, hk.discarded, discarded_entry ha, List.append_nil]
    · rfl
  held t ht hq := by
    rcases mem_takenAfter ht with hold | ⟨rfl, hs⟩
    case inr => exact contains_hubAfter (by simp) hs
    refine contains_hubAfter ?_ (hk.held t hold hq)
    rintro rfl
    -- a receiver that drops the stream of a delivery surrenders the delivery
    have hmem : t.delivery.message ∈
        fromQueue queue ((i.taken.filter (·.stream == t.stream)).map Taken.delivery) := by
      rw [mem_fromQueue, ← hq]
      exact List.mem_map_of_mem (List.mem_filter.2 ⟨hold, beq_self_eq_true _⟩)
    rw [(List.append_eq_nil_iff.1 ha).2] at hmem
    cases hmem

theorem Keeps.foldl {acts : List Act} (hk : i.Keeps queue) (hc : Careful queue i acts) :
    (acts.foldl Inventory.step i).Keeps queue := by
  induction acts generalizing i with
  | nil => exact hk
  | cons a rest ih => exact ih (hk.step hc.1) hc.2

theorem keeps_empty (queue : String) : Keeps {} queue :=
  ⟨rfl, fun _ ht => absurd ht List.not_mem_nil⟩

/-! ## Runs -/

/-- Where a message of a queue is while it is not lost. -/
inductive Placed (i : Inventory) (queue : String) (m : Message) : Prop
  | waiting (hm : m ∈ i.hub.waiting queue)
  /-- It has been handed out into a stream that is held. -/
  | unread {stream : Nat} (hs : i.hub.streams.contains stream = true)
      (hm : m ∈ i.hub.inStream queue stream)
  /-- A receiver has taken it from a stream that is held, and has not settled it. -/
  | unsettled {stream : Nat} (hs : i.hub.streams.contains stream = true)
      (ht : ⟨stream, ⟨queue, m⟩⟩ ∈ i.taken)
  /-- It has been accepted or rejected by a settlement. -/
  | settled {v : Verdict} (hv : v ≠ .requeue) (hs : ⟨m, v⟩ ∈ i.hub.settled)

/-- A message that has come into a queue from which nothing is dropped unsettled is not lost. -/
theorem placed_of_accepted (hi : i.Sound) (hq : i.hub.queues.contains queue = true)
    (hk : i.Keeps queue) {m : Message} (hm : m ∈ (i.account queue).accepted) :
    ∃ m', m'.plain = m.plain ∧ i.Placed queue m' := by
  have hmem := (hi.balanced queue hq).mem_iff.1 (List.mem_map_of_mem (List.mem_append_left _ hm))
  rw [hk.discarded, List.append_nil, List.mem_map] at hmem
  obtain ⟨m', hmem, hplain⟩ := hmem
  refine ⟨m', hplain, ?_⟩
  simp only [Hub.held, List.mem_append] at hmem
  rcases hmem with ((hwaiting | hout) | htaken) | hconcluded
  · exact .waiting hwaiting
  · obtain ⟨stream, hs, hunread⟩ := List.mem_flatMap.1 hout
    rw [List.mem_eraseDups, Table.mem_keys_iff] at hs
    exact .unread hs hunread
  · obtain ⟨t, ht, hd⟩ := List.mem_map.1 (mem_fromQueue.1 htaken)
    have hs := hk.held t ht (by rw [hd])
    exact .unsettled hs (hd ▸ ht)
  · obtain ⟨s, hs, rfl⟩ := List.mem_map.1 ((hi.recorded queue).subset hconcluded)
    obtain ⟨hs, hv⟩ := List.mem_filter.1 hs
    exact .settled (of_decide_eq_true hv) hs

/-- What a run of a broker and its receivers leaves of the messages of a queue. -/
structure Accounted (acts : List Act) (queue : String) : Prop where
  /-- Each copy that the queue has accepted is at the broker, with a receiver, settled for good or
  dropped by a receiver. -/
  balanced : (run acts).Balances queue
  recorded : ((run acts).account queue).concluded.Sublist (run acts).hub.concluded
  /-- As long as receivers drop nothing unsettled, nothing is lost. -/
  kept : Careful queue {} acts → (run acts).Keeps queue ∧
    ∀ m ∈ ((run acts).account queue).accepted, ∃ m', m'.plain = m.plain ∧ (run acts).Placed queue m'

/-- Whatever happens to a broker, its channels, its consumers and its network, it loses nothing from
a queue that is there: what is missing has been dropped by a receiver that had not settled it. -/
theorem accounted_run (acts : List Act) {queue : String}
    (hq : (run acts).hub.queues.contains queue = true) : Accounted acts queue where
  balanced := (sound_empty.foldl acts).balanced queue hq
  recorded := (sound_empty.foldl acts).recorded queue
  kept hc :=
    have hk := (keeps_empty queue).foldl hc
    ⟨hk, fun _ hm => placed_of_accepted (sound_empty.foldl acts) hq hk hm⟩

/-- The message of the runs below. -/
def parcel : Message where
  body := [109]
  headers := .ofList [(messageIdHeader, "m1")]

/-- A message comes into a queue, is handed out to a consumer and taken from its stream. -/
def taking : List Act :=
  [.move (.declareQueue 1 (.ofPersistence "q" true false)),
    .move (.inject "q" parcel.body (some "m1")), .move .connect, .move (.consume 1 "q"),
    .move (.take 1)]

/-- The message is settled, which fails, and it is taken again. The channel is closed, the consumers
are dropped, and the message is put back into the queue before the stream is dropped. -/
def failures : List Act :=
  taking ++ [.move (.failSettlements 1), .settle 0 .accept, .move (.take 1),
    .move (.closeChannel 1), .move .dropConsumers, .settle 0 .requeue, .move (.leave 1)]

theorem waiting_after_failures :
    (run failures).hub.queues.contains "q" = true ∧ Accounted failures "q" ∧
      Careful "q" {} failures ∧ (run failures).hub.waiting "q" = [parcel.again] :=
  ⟨by decide +kernel, accounted_run failures (by decide +kernel), by decide +kernel,
    by decide +kernel⟩

/-- The message is settled while the network is down. The receiver gives the delivery up, and its
stream, and the network is up again. -/
def outage : List Act :=
  taking ++ [.move (.network { offline := true }), .settle 0 .accept, .discard 0,
    .move (.leave 1), .move (.network {})]

/-- The message is neither in its queue nor in a stream, no receiver has it, and it has not been
settled. -/
theorem lost_in_outage :
    (run outage).hub.queues.contains "q" = true ∧ parcel ∈ ((run outage).account "q").accepted ∧
      ∀ m, m.plain = parcel.plain → ¬ (run outage).Placed "q" m := by
  have hwaiting : (run outage).hub.waiting "q" = [] := by decide +kernel
  have hstreams : (run outage).hub.streams = .empty := by decide +kernel
  have hsettled : (run outage).hub.settled = [] := by decide +kernel
  refine ⟨by decide +kernel, by decide +kernel, fun m _ hp => ?_⟩
  cases hp with
  | waiting hm =>
    rw [hwaiting] at hm
    cases hm
  | unread hs hm =>
    rw [hstreams] at hs
    cases hs
  | unsettled hs ht =>
    rw [hstreams] at hs
    cases hs
  | settled hv hs =>
    rw [hsettled] at hs
    cases hs

end Inventory

end Reconnect.Rehearsal
