import Reconnect.Proofs.Broker.Failures
import Reconnect.Proofs.Rehearsal.Shift

/-!
# How a consumption goes on while nothing goes wrong but settlements

The steps of a consumption whose channel stays open. Before its stream is open, messages wait in the
queue (`Unbegun`); then it takes them from its stream one by one (`Underway`), and each settlement
takes effect or fails. The records of failed settlements stay within their limits (`Limited`).
-/

namespace Reconnect.Rehearsal

open Broker

/-- The consumption of an assignment when it has taken note of the last recovery. -/
def Assignment.going (a : Assignment) (f : Failures) (handled : Nat)
    (phase : Consumption.Phase Nat) : Consumption Nat :=
  { a.consumption with failures := f, seen := some a.world.supervisor.generation, handled, phase }

@[simp] theorem Assignment.going_phase (a : Assignment) (f : Failures) (handled : Nat)
    (phase : Consumption.Phase Nat) : (a.going f handled phase).phase = phase := rfl

/-- No failed settlements, with the limits of an assignment. -/
def Assignment.failures (a : Assignment) : Failures :=
  .empty a.consumer.capacity a.consumer.timeToLive

/-- The records after a settlement with a verdict on record. -/
def retried (f : Failures) (name : String) : Except Fault Unit → Failures
  | .ok _ => f.remove name
  | .error _ => f

/-- The records after a settlement with the verdict of the handler. -/
def concluded (f : Failures) (now : Millis) (name : String) (v : Verdict) :
    Except Fault Unit → Failures
  | .ok _ => f
  | .error _ => f.record now name v

/-- What is known of the world of a shift before its stream is open. -/
structure Unbegun (a : Assignment) (all : List Message) (t : Millis) (w : HubWorld) : Prop where
  steady : Steady a.world t w
  unfed : w.site.store.Unfed a.queue all
  settled : w.site.store.settled = a.world.site.store.settled

/-- The end of an opening of a stream, and how many steps are left. -/
inductive Opening (a : Assignment) : Execution.Phase Nat → Nat → Prop
  | entering (timeout : Millis) : Opening a (.entering timeout) 3
  | seeking : Opening a .seeking 2
  | running {c : Nat} (ho : a.world.site.store.isOpen c = true) : Opening a (.running c) 1

theorem Opening.bounds {a : Assignment} {phase : Execution.Phase Nat} {k : Nat}
    (h : Opening a phase k) : 1 ≤ k ∧ k ≤ 5 := by
  cases h <;> omega

/-- What is known of the world of a shift while its stream is read. -/
structure Underway (a : Assignment) (t : Millis) (log : List Judged) (feed : Feed)
    (buffer : List Message) (w : HubWorld) : Prop where
  steady : Steady a.world t w
  fed : w.site.store.Fed a.queue feed buffer
  settled : w.site.store.settled =
    a.world.site.store.settled ++ log.map fun e => ⟨e.1, e.2⟩

/-- What is known of the records of a shift beside their balance. -/
structure Limited (a : Assignment) (f : Failures) : Prop where
  since : f.Since a.world.site.store.network.wall
  timeToLive : f.timeToLive = a.consumer.timeToLive
  capacity : a.consumer.capacity ≤ f.capacity

variable {a : Assignment} {h : Handler HubWorld} {all waiting : List Message} {t : Millis}
  {w : HubWorld}

/-! ## The steps of a consumption -/

section Steps

variable {f f' : Failures} {k c stream : Nat} {phase : Consumption.Phase Nat} {m : Message}
  {v : Verdict} {name : String}

theorem not_canceled (hr : a.Ready waiting) (hw : Steady a.world t w) :
    ¬ w.isCanceled (a.going f k phase).context = true := by
  rw [hw.isCanceled, Bool.not_eq_true]
  exact hr.wanted

theorem not_canceled_turn (hr : a.Ready waiting) (hw : Steady a.world t w) (opens : Bool) :
    ¬ (opens && w.isCanceled (a.going f k phase).context) = true := by
  rw [Bool.and_eq_true, not_and]
  exact fun _ => not_canceled hr hw

/-- A message without a verdict on record reaches the handler. -/
theorem receive_new (hm : m.id? = some name)
    (hget : f.get w.site.store.network.wall name = (f', none)) :
    Consumption.receive h w (a.going f k phase) c stream ⟨a.queue, m⟩ =
      let r := h.handle w k (Delivery.received ⟨a.queue, m⟩)
      (r.1, a.going f' (k + 1) (.handling c stream ⟨a.queue, m⟩ r.2.2 (r.1.now + r.2.1))) := by
  have hid : (Delivery.received ⟨a.queue, m⟩).id? = some name := hm
  have hkept : (a.going f k phase).failures.get (Channels.wall w.site.store) name = (f', none) :=
    hget
  rw [Consumption.receive]
  simp only [hid, hkept]
  rfl

/-- A message with a verdict on record is settled without reaching the handler. -/
theorem receive_known (hm : m.id? = some name)
    (hget : f.get w.site.store.network.wall name = (f', some v)) {w' : HubWorld}
    {r : Except Fault Unit} (hs : Consumption.settle w ⟨a.queue, m⟩ v = (w', r)) :
    Consumption.receive h w (a.going f k phase) c stream ⟨a.queue, m⟩ =
      (w', a.going (retried f' name r) k phase) := by
  have hid : (Delivery.received ⟨a.queue, m⟩).id? = some name := hm
  have hkept : (a.going f k phase).failures.get (Channels.wall w.site.store) name =
      (f', some v) := hget
  rw [Consumption.receive]
  simp only [hid, hkept, hs]
  cases r <;> rfl

theorem step_handling {due : Millis} (hdue : due ≤ w.now) (hm : m.id? = some name)
    {w' : HubWorld} {r : Except Fault Unit}
    (hs : Consumption.settle w ⟨a.queue, m⟩ v = (w', r)) (opens : Bool) :
    (a.going f k (.handling c stream ⟨a.queue, m⟩ v due)).step h w opens =
      (w', .moves (a.going (concluded f w'.site.store.network.wall name v r) k
        (.reading c stream))) := by
  have hid : (Delivery.received ⟨a.queue, m⟩).id? = some name := hm
  rw [Consumption.step]
  simp only [Assignment.going_phase, if_neg (Nat.not_lt.2 hdue), Consumption.conclude, hs, hid]
  cases r <;> rfl

theorem step_reading (hr : a.Ready waiting) (hw : Steady a.world t w) (opens : Bool) {b : Hub}
    (ht : w.site.store.take stream = (b, .delivery ⟨a.queue, m⟩)) :
    (a.going f k (.reading c stream)).step h w opens =
      let r := Consumption.receive h (withStore w b) (a.going f k (.reading c stream)) c stream
        ⟨a.queue, m⟩
      (r.1, .moves r.2) := by
  have htake : Channels.take w.site.store stream = (b, .delivery ⟨a.queue, m⟩) := ht
  rw [Consumption.step]
  simp only [Assignment.going_phase, if_neg (not_canceled hr hw), htake]

theorem step_idle (hr : a.Ready waiting) (hw : Steady a.world t w) (opens : Bool)
    (ht : w.site.store.take stream = (w.site.store, .pending)) :
    (a.going f k (.reading c stream)).step h w opens =
      (w, .waits (a.going f k (.reading c stream))) := by
  have htake : Channels.take w.site.store stream = (w.site.store, .pending) := ht
  rw [Consumption.step]
  simp only [Assignment.going_phase, if_neg (not_canceled hr hw), htake]
  rfl

theorem step_opening {again opens : Bool} {e e' : Execution Nat} {w' : HubWorld}
    (hr : a.Ready waiting) (hw : Steady a.world t w)
    (he : e.step (asking (.consume a.queue)) w opens = (w', .moves e')) :
    (a.going f k (.opening again e)).step h w opens =
      (w', .moves (a.going f k (.opening again e'))) := by
  have hstep : e.step (asking (.consume (a.going f k (.opening again e)).queue)) w opens =
      (w', .moves e') := he
  rw [Consumption.step]
  simp only [Assignment.going_phase, if_neg (not_canceled_turn hr hw opens), hstep]
  rfl

theorem step_opened {again opens : Bool} {e : Execution Nat} {w' : HubWorld}
    {o : Execution.Outcome (Broker.Reply Nat)} (hr : a.Ready waiting) (hw : Steady a.world t w)
    (he : e.step (asking (.consume a.queue)) w opens = (w', .ends o))
    (ho : o.result = .ok (.opened c stream)) :
    (a.going f k (.opening again e)).step h w opens =
      (w', .moves (a.going f k (.reading c stream))) := by
  have hstep : e.step (asking (.consume (a.going f k (.opening again e)).queue)) w opens =
      (w', .ends o) := he
  rw [Consumption.step]
  simp only [Assignment.going_phase, if_neg (not_canceled_turn hr hw opens), hstep, ho]
  rfl

end Steps

/-! ## Before the stream is open -/

namespace Unbegun

/-- Time passes. -/
theorem pass (hw : Unbegun a all t w) (clock wall : Millis) :
    Unbegun a all (t + wall) (Shift.change (w.setClock clock) (Shift.later wall)) :=
  ⟨hw.steady.pass clock wall, hw.unfed, hw.settled⟩

/-- Settlements are made to fail. -/
theorem fail (hw : Unbegun a all t w) (count : Nat) :
    Unbegun a all t (Shift.change w fun b => { b with failingSettlements := count }) :=
  ⟨hw.steady.withStore rfl rfl, hw.unfed, hw.settled⟩

/-- A message that is enqueued waits behind the others. -/
theorem enqueue (hw : Unbegun a all t w) (m : Message) :
    Unbegun a (all ++ [m]) t (Shift.change w (·.enqueue a.queue m)) := by
  have halike := w.site.store.enqueue_alike a.queue m
  exact ⟨hw.steady.alike halike, hw.unfed.enqueue m, halike.settled.trans hw.settled⟩

/-- The first step takes note of the last recovery. -/
theorem step_entering (hr : a.Ready waiting) (hw : Unbegun a all t w) (opens : Bool) :
    a.consumption.step h w opens = (w, .moves (a.going a.failures 0 (.seeking false))) := by
  have hseen : (if w.attached then some w.supervisor.generation else none) =
      some a.world.supervisor.generation := by
    rw [hw.steady.attached, hr.attached, if_pos rfl, hw.steady.supervisor]
  simp only [Assignment.consumption, Consumption.step, hseen]
  rfl

/-- Nothing has to be declared again, so a stream is opened. -/
theorem step_seeking (hr : a.Ready waiting) (hw : Unbegun a all t w) (opens : Bool) :
    (a.going a.failures 0 (.seeking false)).step h w opens =
      (w.draw.1, .moves (a.going a.failures 0
        (.opening false
          (.start a.consumer.client.client a.consumer.client.client.readTimeout)))) := by
  have hout : Consumption.outdated? w (a.going a.failures 0 (.seeking false)) = none := by
    rw [Consumption.outdated?]
    split
    -- no recovery has announced connections since the consumption took note of the last one
    case h_1 topology seen _ hseen =>
      have hgen : w.supervisor.generation = seen := by
        rw [hw.steady.supervisor]
        exact Option.some.inj hseen
      rw [hgen, bne_self_eq_false, Bool.and_false]
      rfl
    case h_2 => rfl
  rw [Consumption.step]
  simp only [Assignment.going_phase, if_neg (not_canceled hr hw.steady), hout]
  rfl

/-- The queue is there and the channel is open, so the broker opens a stream. -/
theorem request_consume (hr : a.Ready waiting) (hw : Unbegun a all t w) {c : Nat}
    (ho : a.world.site.store.isOpen c = true) :
    request w.site.store c (.consume a.queue) =
      ((w.site.store.consume c a.queue).1, .ok (.opened c (w.site.store.opened + 1))) := by
  have hfault : w.site.store.fault? c = none := by
    rw [Hub.fault?, hw.steady.isOpen, if_pos ho]
    exact hw.steady.up hr
  have hserve : w.site.store.serve c (w.site.store.consume c a.queue) =
      w.site.store.consume c a.queue := by
    rw [Hub.serve, hfault]
  simp only [request]
  change ((w.site.store.serve c (w.site.store.consume c a.queue)).1,
    (w.site.store.serve c (w.site.store.consume c a.queue)).2.map (Reply.opened c)) = _
  rw [hserve, (hw.unfed.consume c).1]
  rfl

/-- The stream is open, with all that has waited. -/
theorem underway (hw : Unbegun a all t w) (c : Nat) :
    Underway a t [] ⟨c, w.site.store.opened + 1⟩ all
      (withStore w (w.site.store.consume c a.queue).1) := by
  obtain ⟨-, hfed, halike⟩ := hw.unfed.consume c
  refine ⟨hw.steady.alike halike, hfed, ?_⟩
  rw [List.map_nil, List.append_nil, ← hw.settled]
  exact halike.settled

/-- One step of the opening of a stream leads on, or the stream is open. -/
theorem step_execution (hr : a.Ready waiting) (hw : Unbegun a all t w) {e : Execution Nat} {k : Nat}
    (he : e.client = a.consumer.client.client) (hp : Opening a e.phase k) (opens : Bool) :
    (∃ e' k', e.step (asking (.consume a.queue)) w opens = (w, .moves e') ∧
        e'.client = a.consumer.client.client ∧ Opening a e'.phase k' ∧ k' + 1 = k) ∨
      ∃ c o, e.step (asking (.consume a.queue)) w opens =
          (withStore w (w.site.store.consume c a.queue).1, .ends o) ∧
        o.result = .ok (.opened c (w.site.store.opened + 1)) ∧ k = 1 := by
  have hcan : w.isCanceled e.client.context = false := by
    rw [hw.steady.isCanceled, he, hr.running]
  obtain ⟨client, deadline, attempts, phase⟩ := e
  subst he
  cases hp with
  | entering timeout =>
    refine .inl ⟨⟨_, w.now + timeout, attempts, .seeking⟩, 2, ?_, rfl, .seeking, rfl⟩
    rw [Execution.step]
    simp only [hcan, Bool.false_eq_true, if_false]
  | seeking =>
    obtain ⟨c, hc, ho⟩ := hr.connected
    rw [← hw.steady.connection?] at hc
    have hattached : w.attached = true := by rw [hw.steady.attached, hr.attached]
    refine .inl ⟨⟨_, deadline, attempts + 1, .running c⟩, 1, ?_, rfl, .running ho, rfl⟩
    rw [Execution.step]
    simp only [hcan, hattached, hc, Bool.and_false, Bool.not_true, Bool.false_eq_true, if_false]
    rfl
  | @running c ho =>
    -- the request is answered at once, which ends the execution
    refine .inr ⟨c, ⟨attempts, .ok (.opened c (w.site.store.opened + 1))⟩, ?_, rfl, rfl⟩
    have hask : (asking (.consume a.queue)).step w c =
        (withStore w (w.site.store.consume c a.queue).1,
          .ends (.ok (.opened c (w.site.store.opened + 1)))) := by
      simp only [asking, Operation.atOnce, hw.request_consume hr ho]
    rw [Execution.step]
    simp only [hcan, hask, Bool.and_false, Bool.false_eq_true, if_false]
    rfl

end Unbegun

/-! ## While the stream is read -/

namespace Limited

variable {f : Failures} {name : String}

theorem start (a : Assignment) : Limited a a.failures :=
  ⟨fun _ _ hr => absurd hr nofun, rfl, Nat.le_max_left ..⟩

theorem wall_le (hw : Steady a.world t w) :
    a.world.site.store.network.wall ≤ w.site.store.network.wall := by
  rw [hw.wall]
  exact Nat.le_add_right _ t

theorem wall_lt (hf : Limited a f) (hw : Steady a.world t w) (ht : t < a.consumer.timeToLive) :
    w.site.store.network.wall < a.world.site.store.network.wall + f.timeToLive := by
  rw [hw.wall, hf.timeToLive]
  exact Nat.add_lt_add_left ht _

/-- No record is too old. -/
theorem get (hf : Limited a f) (hw : Steady a.world t w) (ht : t < a.consumer.timeToLive)
    (name : String) :
    ∃ f', f.get w.site.store.network.wall name = (f', f.verdict? name) ∧
      f'.records = f.records ∧ Limited a f' := by
  have hle := wall_le hw
  have hlt := hf.wall_lt hw ht
  refine ⟨_, Prod.ext rfl (Failures.get_verdict hf.since hle hlt name), ?_, ?_⟩
  · exact Failures.get_records hf.since hle hlt name
  · exact ⟨hf.since.get hle hlt name, hf.timeToLive, hf.capacity⟩

theorem record (hf : Limited a f) (hw : Steady a.world t w) (ht : t < a.consumer.timeToLive)
    (hroom : f.size < a.consumer.capacity) (name : String) (v : Verdict) :
    Limited a (f.record w.site.store.network.wall name v) := by
  have hroom' : f.size < f.capacity := Nat.lt_of_lt_of_le hroom hf.capacity
  have hsince := hf.since.record (wall_le hw) (hf.wall_lt hw ht) hroom' name v
  exact ⟨hsince, hf.timeToLive, hf.capacity⟩

theorem remove (hf : Limited a f) (name : String) : Limited a (f.remove name) :=
  ⟨hf.since.remove name, hf.timeToLive, hf.capacity⟩

end Limited

namespace Underway

variable {log : List Judged} {feed : Feed} {buffer : List Message} {m : Message} {v : Verdict}

/-- Time passes. -/
theorem pass (hw : Underway a t log feed buffer w) (clock wall : Millis) :
    Underway a (t + wall) log feed buffer
      (Shift.change (w.setClock clock) (Shift.later wall)) :=
  ⟨hw.steady.pass clock wall, hw.fed, hw.settled⟩

/-- Settlements are made to fail. -/
theorem fail (hw : Underway a t log feed buffer w) (count : Nat) :
    Underway a t log feed buffer
      (Shift.change w fun b => { b with failingSettlements := count }) :=
  ⟨hw.steady.withStore rfl rfl, hw.fed, hw.settled⟩

/-- A message that is enqueued goes to the end of the stream. -/
theorem enqueue (hw : Underway a t log feed buffer w) (m : Message) :
    Underway a t log feed (buffer ++ [m]) (Shift.change w (·.enqueue a.queue m)) := by
  have halike := w.site.store.enqueue_alike a.queue m
  exact ⟨hw.steady.alike halike, hw.fed.enqueue m, halike.settled.trans hw.settled⟩

/-- The next message is taken from the stream. -/
theorem take (hw : Underway a t log feed (m :: buffer) w) :
    ∃ b, w.site.store.take feed.stream = (b, .delivery ⟨a.queue, m⟩) ∧
      Underway a t log feed buffer (withStore w b) ∧
      b.failingSettlements = w.site.store.failingSettlements := by
  obtain ⟨hd, hfed, halike⟩ := hw.fed.take_cons
  refine ⟨(w.site.store.take feed.stream).1, Prod.ext rfl hd, ⟨hw.steady.alike halike, hfed, ?_⟩,
    halike.failingSettlements⟩
  rw [← hw.settled]
  exact halike.settled

/-- A settlement takes effect, or it fails and the message comes again. -/
theorem settle (hr : a.Ready waiting) (hw : Underway a t log feed buffer w) (m : Message)
    (hv : v ≠ .requeue) :
    (∃ b, Consumption.settle w ⟨a.queue, m⟩ v = (withStore w b, .ok ()) ∧
        Underway a t (log ++ [(m, v)]) feed buffer (withStore w b) ∧
        b.failingSettlements = w.site.store.failingSettlements) ∨
      ∃ b, Consumption.settle w ⟨a.queue, m⟩ v = (withStore w b, .error .network) ∧
        Underway a t log feed (buffer ++ [m.again]) (withStore w b) ∧
        b.failingSettlements + 1 = w.site.store.failingSettlements := by
  have hup := hw.steady.up hr
  -- the settlement fails exactly if the broker was told to fail some more
  rcases Nat.eq_zero_or_pos w.site.store.failingSettlements with hfail | hfail
  · refine .inl ⟨{ w.site.store with settled := w.site.store.settled ++ [⟨m, v⟩] }, ?_, ?_, rfl⟩
    · have hs := Hub.settle_ok (d := ⟨a.queue, m⟩) hup hfail hv
      change (withStore w (w.site.store.settle ⟨a.queue, m⟩ v).1,
        (w.site.store.settle ⟨a.queue, m⟩ v).2) = _
      rw [hs]
    · refine ⟨hw.steady.withStore rfl rfl, hw.fed, ?_⟩
      rw [List.map_append, ← List.append_assoc, ← hw.settled]
      rfl
  · obtain ⟨hs, hfed, halike⟩ := hw.fed.settle_failing hup hfail m v
    refine .inr ⟨(w.site.store.settle ⟨a.queue, m⟩ v).1, Prod.ext rfl hs, ⟨?_, hfed, ?_⟩, ?_⟩
    · exact hw.steady.withStore halike.closedChannels halike.network
    · rw [← hw.settled]
      exact halike.settled
    · rw [halike.failingSettlements]
      exact Nat.sub_add_cancel hfail

theorem ripe (hw : Underway a t log feed buffer w) (c : Consumption Nat) :
    Underway a t log feed buffer (Shift.ripe w c) := by
  refine ⟨hw.steady.ripe c, ?_, ?_⟩
  · rw [Shift.ripe_site]
    exact hw.fed
  · rw [Shift.ripe_site]
    exact hw.settled

theorem handle (hh : Calm h) (hw : Underway a t log feed buffer w) (n : Nat) (r : Received) :
    Underway a t log feed buffer (h.handle w n r).1 := by
  refine ⟨hw.steady.handle hh n r, ?_, ?_⟩
  · rw [hh.store]
    exact hw.fed
  · rw [hh.store]
    exact hw.settled

end Underway

end Reconnect.Rehearsal
