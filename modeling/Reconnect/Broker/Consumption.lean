import Reconnect.Broker.Arrangement
import Reconnect.Broker.Failures
import Reconnect.Schedule.Errand

/-!
# Consuming

A consumption opens a stream of deliveries and hands them to a handler, one by one; each is settled
with the verdict of the handler before the next is read. When the stream ends, the supervisor is
told and another stream is opened, through outages, until the context of the call is canceled.

If settling fails after the handler ran, its verdict is kept, and a redelivery of that message is
settled with it without reaching the handler. After a recovery the topology of the consumer is
declared again before a stream is opened; if the broker refuses the stream, it is declared again
once.
-/

namespace Reconnect.Broker

/-- A consumer of queues. -/
structure Consumer where
  client : BrokerClient
  topology : Option Topology := none
  /-- How many failed settlements are kept at most. -/
  capacity : Nat := 10000
  /-- How long a failed settlement is kept. -/
  timeToLive : Millis := 600000
  deriving DecidableEq, Repr, Inhabited

/-- A message as a handler sees it. -/
structure Received where
  body : Bytes
  headers : Headers
  id? : Option String
  redelivered : Bool
  deriving DecidableEq

/-- The body of a message as text, if it is text. -/
def Received.text? (r : Received) : Option String := Text.ofUtf8? r.body

/-- A delivered message as a handler sees it. -/
def Delivery.received (d : Delivery) : Received :=
  ⟨d.message.body, d.message.headers, d.message.id?, d.message.redelivered⟩

/-- A handler of messages: what the call of a number does, how long it takes, and its verdict. -/
structure Handler (W : Type) where
  handle : W → Nat → Received → W × Millis × Verdict

/-- What a consumption is doing. -/
inductive Consumption.Phase (C : Type) where
  /-- It has not begun. -/
  | entering
  /-- It is about to open a stream. `again` tells whether the topology has been declared again
  because a stream was refused. -/
  | seeking (again : Bool)
  /-- It lets all other calls go first, after an attempt that had no time. -/
  | yielding (again : Bool) (till : Event)
  /-- It declares the topology again after a recovery. -/
  | restoring (again : Bool) (a : Arrangement C)
  /-- It opens a stream. -/
  | opening (again : Bool) (e : Execution C)
  /-- It declares the topology again because a stream was refused. -/
  | recovering (a : Arrangement C)
  /-- It reads a stream. -/
  | reading (channel : C) (stream : Nat)
  /-- The handler is at work. -/
  | handling (channel : C) (stream : Nat) (d : Delivery) (verdict : Verdict) (due : Millis)
  /-- It renews the connection of its client before it ends. -/
  | leaving (e : Errand C) (result : Except (MessagingError Fault) Unit)

/-- The consumption of a queue. -/
structure Consumption (C : Type) where
  consumer : Consumer
  context : String
  queue : String
  failures : Failures := .empty 1 0
  /-- The last recovery that was taken note of. -/
  seen : Option Nat := none
  /-- How often the handler has been called. -/
  handled : Nat := 0
  phase : Consumption.Phase C := .entering

namespace Consumption

variable {S C : Type} [Site S C] [Channels S C]

/-- The result of a call of consumption. -/
abbrev Result := Except (MessagingError Fault) Unit

/-- Ends a consumption with a result, once the connection of its client has been renewed. -/
def finish (w : World (Station S) C) (c : Consumption C) (result : Result) :
    World (Station S) C × Step (Consumption C) Result :=
  if w.attached then
    (w, .moves { c with
      phase := .leaving (.ready (.renewTake c.consumer.client.client.id)) result })
  else (w, .ends result)

/-- Ends a consumption that failed. A cancellation is no failure. -/
def fail (w : World (Station S) C) (c : Consumption C) (e : MessagingError Fault) :
    World (Station S) C × Step (Consumption C) Result :=
  finish w c (if e.isCanceled then .ok () else .error e)

/-- Goes on after an attempt that ran out of the time it had. -/
def retry (w : World (Station S) C) (c : Consumption C) (again : Bool) (time : Millis) :
    World (Station S) C × Step (Consumption C) Result :=
  (w, .moves { c with
    phase := if time = 0 then .yielding again (w.after 0) else .seeking again })

/-- The topology to declare again, if there has been a recovery since the last look. -/
def outdated? (w : World (Station S) C) (c : Consumption C) : Option Topology :=
  match c.consumer.topology, c.seen with
  | some t, some seen =>
    if w.attached && seen != w.supervisor.generation then some t else none
  | _, _ => none

/-- Begins to open a stream. Its name draws on the supply of identifiers. -/
def openStream (w : World (Station S) C) (again : Bool) (c : Consumption C) :
    World (Station S) C × Step (Consumption C) Result :=
  let client := c.consumer.client.client
  (w.draw.1, .moves { c with phase := .opening again (.start client client.readTimeout) })

/-- Settles a delivery. -/
def settle (w : World (Station S) C) (d : Delivery) (v : Verdict) :
    World (Station S) C × Except Fault Unit :=
  let r := Channels.settle w.site.store d v
  (withStore w r.1, r.2)

/-- Receives a delivery: settles it with the verdict that was kept for it, or calls the handler. -/
def receive (h : Handler (World (Station S) C)) (w : World (Station S) C) (c : Consumption C)
    (channel : C) (stream : Nat) (d : Delivery) : World (Station S) C × Consumption C :=
  let kept := match d.received.id? with
    | some id => c.failures.get (Channels.wall w.site.store) id
    | none => (c.failures, none)
  let c := { c with failures := kept.1 }
  match kept.2, d.received.id? with
  | some v, some id =>
    -- The handler has seen this message; only its settlement was lost.
    let r := settle w d v
    (r.1, match r.2 with
      | .ok _ => { c with failures := c.failures.remove id }
      | .error _ => c)
  | _, _ =>
    let r := h.handle w c.handled d.received
    (r.1, { c with
      handled := c.handled + 1
      phase := .handling channel stream d r.2.2 (r.1.now + r.2.1) })

/-- Settles a delivery with the verdict of the handler, and keeps it if that fails. -/
def conclude (w : World (Station S) C) (c : Consumption C) (d : Delivery) (v : Verdict) :
    World (Station S) C × Consumption C :=
  let r := settle w d v
  (r.1, match r.2, d.received.id? with
    | .error _, some id =>
      { c with failures := c.failures.record (Channels.wall r.1.site.store) id v }
    | _, _ => c)

/-- One step of a consumption. -/
def step (h : Handler (World (Station S) C)) (w : World (Station S) C) (opens : Bool)
    (c : Consumption C) : World (Station S) C × Step (Consumption C) Result :=
  match c.phase with
  | .entering =>
    (w, .moves { c with
      failures := .empty c.consumer.capacity c.consumer.timeToLive
      seen := if w.attached then some w.supervisor.generation else none
      phase := .seeking false })
  | .seeking again =>
    if w.isCanceled c.context then finish w c (.ok ())
    else
      match outdated? w c with
      | some t => (w, .moves { c with phase := .restoring again (.restore w t) })
      | none => openStream w again c
  | .yielding again till =>
    if w.hasHappened till || w.isCanceled c.context then
      (w, .moves { c with phase := .seeking again })
    else (w, .waits c)
  | .restoring again a =>
    if opens && w.isCanceled c.context then finish w c (.ok ())
    else
      let r := a.step w opens
      match r.2 with
      | .waits a => (r.1, .waits { c with phase := .restoring again a })
      | .moves a => (r.1, .moves { c with phase := .restoring again a })
      | .ends (.ok _) => openStream r.1 again { c with seen := some r.1.supervisor.generation }
      | .ends (.error e) =>
        if e.isTimeout then retry r.1 c again a.topology.client.declareTimeout else fail r.1 c e
  | .opening again e =>
    if opens && w.isCanceled c.context then finish w c (.ok ())
    else
      let r := e.step (asking (.consume c.queue)) w opens
      match r.2 with
      | .waits e => (r.1, .waits { c with phase := .opening again e })
      | .moves e => (r.1, .moves { c with phase := .opening again e })
      | .ends o =>
        match o.result with
        | .ok (.opened channel stream) => (r.1, .moves { c with phase := .reading channel stream })
        | .ok _ => (r.1, .moves { c with phase := .seeking again })
        -- An outage may last longer than one attempt: the consumption goes on.
        | .error .operationTimeout => retry r.1 c again c.consumer.client.client.readTimeout
        -- The broker may have lost what the topology declared, but only once per stream.
        | .error (.operation f) =>
          match again, c.consumer.topology with
          | false, some t => (r.1, .moves { c with phase := .recovering (.restore r.1 t) })
          | _, _ => fail r.1 c (.client (.operation f))
        | .error e => fail r.1 c (.client e)
  | .recovering a =>
    if opens && w.isCanceled c.context then finish w c (.ok ())
    else
      let r := a.step w opens
      match r.2 with
      | .waits a => (r.1, .waits { c with phase := .recovering a })
      | .moves a => (r.1, .moves { c with phase := .recovering a })
      | .ends (.ok _) => (r.1, .moves { c with phase := .seeking true })
      | .ends (.error e) => fail r.1 c e
  | .reading channel stream =>
    if w.isCanceled c.context then
      let r := Channels.closeChannel w.site.store channel
      finish (withStore w (Channels.leave r.1 stream)) c (.ok ())
    else
      let r := Channels.take w.site.store stream
      let w := withStore w r.1
      match r.2 with
      | .pending => (w, .waits c)
      | .delivery d =>
        let t := receive h w c channel stream d
        (t.1, .moves t.2)
      | .failure _ | .ended =>
        -- A stream does not end by itself, so the connection is taken to be lost.
        let w := w.report
        (withStore w (Channels.leave w.site.store stream), .moves { c with phase := .seeking false })
  | .handling channel stream d v due =>
    if w.now < due then (w, .waits c)
    else
      let r := conclude w c d v
      (r.1, .moves { r.2 with phase := .reading channel stream })
  | .leaving e result =>
    let r := e.step w
    match r.2 with
    | .waits e => (r.1, .waits { c with phase := .leaving e result })
    | .moves e => (r.1, .moves { c with phase := .leaving e result })
    | .ends _ => (r.1, .ends result)

/-- What a consumption waits for. -/
def wakes (w : World (Station S) C) (c : Consumption C) : List Event :=
  match c.phase with
  | .entering | .seeking _ => []
  | .yielding _ till => [.cancellation c.context, till]
  | .restoring _ a | .recovering a => .cancellation c.context :: a.wakes (S := S)
  | .opening _ e => .cancellation c.context :: e.wakes (asking (S := S) (.consume c.queue))
  | .reading _ stream => [.cancellation c.context, .mail stream]
  | .handling _ _ _ _ due => [.time due]
  | .leaving e _ => e.wakes w

omit [Site S C] [Channels S C] in
/-- Whether a consumption holds the supervisor. -/
def holds (c : Consumption C) : Bool :=
  match c.phase with
  | .restoring _ a | .recovering a => a.holds
  | .opening _ e => e.holds
  | .leaving _ _ => true
  | _ => false

/-- What becomes of the world when a consumption is dropped: its stream goes with it. -/
def abandon (w : World (Station S) C) (c : Consumption C) : World (Station S) C :=
  match c.phase with
  | .reading _ stream | .handling _ stream _ _ _ =>
    withStore w (Channels.leave w.site.store stream)
  | _ => w

end Consumption

end Reconnect.Broker
