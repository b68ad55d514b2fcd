import Reconnect.Proofs.Broker.Remembrance
import Reconnect.Proofs.Broker.Vigil
import Reconnect.Proofs.Rehearsal.Redeclaration

/-!
# Redeliveries of what was handled

When a message has been handled and its settlement has failed, a redelivery is settled with the
verdict of the handler and does not reach the handler again, as long as the failure is neither too
old, nor made up for, nor has given way to others (`redelivered_run`). This holds within one
consumption, through all that happens in the world beside it. The next consumption of the same
consumer begins with nothing on record: there the message is handled once more, as in
`handled_again`.
-/

namespace Reconnect.Broker

variable {S C : Type} [Site S C] [Channels S C]

/-! ## What a step notes -/

namespace Consumption

/-- What is noted when a delivery is received: a look at the records, and the failure that the
settlement with the kept verdict makes up for. -/
def receiptNotes (w : World (Station S) C) (c : Consumption C) (d : Delivery) :
    List Failures.Note :=
  let now := Channels.wall w.site.store
  match d.received.id? with
  | none => []
  | some id =>
    .looked now :: match (c.failures.get now id).2 with
      | none => []
      | some v => match (settle w d v).2 with
        | .ok _ => [.settled id]
        | .error _ => []

/-- What is noted when a handled delivery is settled: a failure, and what gives way to it. -/
def conclusionNotes (w : World (Station S) C) (c : Consumption C) (d : Delivery) (v : Verdict) :
    List Failures.Note :=
  let r := settle w d v
  let now := Channels.wall r.1.site.store
  match r.2, d.received.id? with
  | .error _, some id =>
    [.looked now] ++ (c.failures.evicted now id).map .evicted ++ [.failed now id v]
  | _, _ => []

/-- What is noted of failed settlements in the next step. -/
def settlements (w : World (Station S) C) (c : Consumption C) : List Failures.Note :=
  match c.phase with
  | .reading _ stream =>
    if w.isCanceled c.context then []
    else
      let r := Channels.take w.site.store stream
      match r.2 with
      | .delivery d => receiptNotes (withStore w r.1) c d
      | _ => []
  | .handling _ _ d v due => if w.now < due then [] else conclusionNotes w c d v
  | _ => []

end Consumption

namespace Vigil

/-- What is noted of failed settlements in a move. -/
def settlements (y : Vigil S C) : Move S C → List Failures.Note
  | .work _ =>
    match y.call with
    | .inl c => c.settlements y.world
    | .inr _ => []
  | .drift _ => []

/-- The history of the failed settlements along a list of moves. -/
def history (h : Handler (World (Station S) C)) : Vigil S C → List (Move S C) → List Failures.Note
  | _, [] => []
  | y, m :: rest => y.settlements m ++ history h (y.step h m) rest

end Vigil

/-! ## The records agree with the history -/

/-- The records of a consumption agree with a history. -/
structure Recollects (consumer : Consumer) (f : Failures) (log : List Failures.Note) : Prop
    extends f.Recalls log where
  capacity : f.capacity = max consumer.capacity 1
  timeToLive : f.timeToLive = consumer.timeToLive

/-- What is left of a consumption has begun, and its records agree with a history. There may be
nothing left. -/
def Remembers (consumer : Consumer) (c? : Option (Consumption C)) (log : List Failures.Note) :
    Prop :=
  ∃ f, Recollects consumer f log ∧ ∀ c, c? = some c → c.failures = f ∧ c.phase ≠ .entering

variable {h : Handler (World (Station S) C)} {consumer : Consumer} {log : List Failures.Note}
  {w w' : World (Station S) C} {opens : Bool} {c c' : Consumption C}
  {s : Step (Consumption C) Consumption.Result}

namespace Recollects

variable {f : Failures}

theorem empty (consumer : Consumer) :
    Recollects consumer (.empty consumer.capacity consumer.timeToLive) [] where
  toRecalls := .empty _ _
  capacity := rfl
  timeToLive := rfl

theorem get (hf : Recollects consumer f log) (now : Millis) (name : String) :
    Recollects consumer (f.get now name).1 (log ++ [.looked now]) where
  toRecalls := hf.toRecalls.purge now
  capacity := hf.capacity
  timeToLive := hf.timeToLive

theorem remove (hf : Recollects consumer f log) (name : String) :
    Recollects consumer (f.remove name) (log ++ [.settled name]) where
  toRecalls := hf.toRecalls.remove name
  capacity := hf.capacity
  timeToLive := hf.timeToLive

theorem record (hf : Recollects consumer f log) (now : Millis) (name : String) (v : Verdict) :
    Recollects consumer (f.record now name v)
      (log ++ ([.looked now] ++ (f.evicted now name).map .evicted ++ [.failed now name v])) where
  toRecalls := by
    rw [← List.append_assoc, ← List.append_assoc]
    exact hf.toRecalls.record now name v
  capacity := hf.capacity
  timeToLive := hf.timeToLive

end Recollects

omit [Site S C] [Channels S C] in
theorem Remembers.of_eq (hf : Recollects consumer c.failures log) {c? : Option (Consumption C)}
    (hc : ∀ c', c? = some c' → c'.failures = c.failures ∧ c'.phase ≠ .entering) :
    Remembers consumer c? (log ++ []) := by
  rw [List.append_nil]
  exact ⟨_, hf, hc⟩

namespace Consumption

omit [Site S C] [Channels S C] in
theorem failures_finish {w₁ : World (Station S) C} {result : Result}
    (hs : (finish w₁ c result).2.state? = some c') :
    c'.failures = c.failures ∧ c'.phase ≠ .entering := by
  unfold finish at hs
  split at hs <;> cases hs
  exact ⟨rfl, nofun⟩

omit [Site S C] [Channels S C] in
theorem failures_retry {w₁ : World (Station S) C} {again : Bool} {time : Millis}
    (hs : (retry w₁ c again time).2.state? = some c') :
    c'.failures = c.failures ∧ c'.phase ≠ .entering := by
  cases hs
  refine ⟨rfl, ?_⟩
  dsimp only
  split <;> nofun

/-- A consumption that has begun neither begins again nor changes its records, but where it receives
or settles a delivery. -/
theorem Goes.failures (hg : Goes h w opens c w' s) (hs : s.state? = some c')
    (hentering : c.phase ≠ .entering)
    (hreading : ∀ channel stream, c.phase ≠ .reading channel stream)
    (hhandling : ∀ channel stream d v due, c.phase ≠ .handling channel stream d v due) :
    c'.failures = c.failures ∧ c'.phase ≠ .entering := by
  cases hg with
  | enter hp => exact absurd hp hentering
  | canceled => exact failures_finish hs
  | restores _ _ _ _ hs' => cases hs.symm.trans hs'; exact ⟨rfl, nofun⟩
  | restoreLate => exact failures_retry hs
  | restoreFailed => exact failures_finish hs
  | opens _ _ _ _ hs' => cases hs.symm.trans hs'; exact ⟨rfl, nofun⟩
  | openLate => exact failures_retry hs
  | openFailed => exact failures_finish hs
  | recovers _ _ _ _ hs' => cases hs.symm.trans hs'; exact ⟨rfl, nofun⟩
  | recoverFailed => exact failures_finish hs
  | readCanceled hp => exact absurd hp (hreading _ _)
  | pending hp => exact absurd hp (hreading _ _)
  | delivered hp => exact absurd hp (hreading _ _)
  | lost hp => exact absurd hp (hreading _ _)
  | handles hp => exact absurd hp (hhandling _ _ _ _ _)
  | handled hp => exact absurd hp (hhandling _ _ _ _ _)
  | leaves _ hs' => cases hs.symm.trans hs'; exact ⟨rfl, nofun⟩
  | yields hp =>
    cases hs
    exact ⟨rfl, hentering⟩
  | left => cases hs
  | _ => cases hs; exact ⟨rfl, nofun⟩

omit [Site S C] in
/-- A received delivery keeps the records in agreement. -/
theorem recollects_receive (hf : Recollects consumer c.failures log) (w : World (Station S) C)
    (channel : C) (stream : Nat) (d : Delivery) :
    Recollects consumer (receive h w c channel stream d).2.failures
      (log ++ c.receiptNotes w d) := by
  unfold receive receiptNotes
  dsimp only
  cases hid : d.received.id? with
  | none =>
    rw [List.append_nil]
    exact hf
  | some id =>
    -- the records are purged whatever they answer
    have hlooked := hf.get (Channels.wall w.site.store) id
    cases hv : (c.failures.get (Channels.wall w.site.store) id).2 with
    | none => simpa only [hv] using hlooked
    | some v =>
      simp only [hv]
      cases (settle w d v).2 with
      | error => exact hlooked
      | ok =>
        rw [List.append_cons]
        exact hlooked.remove id

omit [Site S C] in
/-- A settled delivery keeps the records in agreement. -/
theorem recollects_conclude (hf : Recollects consumer c.failures log) (w : World (Station S) C)
    (d : Delivery) (v : Verdict) :
    Recollects consumer (conclude w c d v).2.failures (log ++ c.conclusionNotes w d v) := by
  unfold conclude conclusionNotes
  dsimp only
  cases (settle w d v).2 with
  | ok =>
    rw [List.append_nil]
    exact hf
  | error =>
    cases d.received.id? with
    | none =>
      rw [List.append_nil]
      exact hf
    | some id => exact hf.record _ id v

/-- A step that reads keeps the records in agreement. -/
theorem remembers_reading (hf : Recollects consumer c.failures log) (hc : c.phase ≠ .entering)
    {channel : C} {stream : Nat} (hp : c.phase = .reading channel stream)
    (w : World (Station S) C) (opens : Bool) :
    Remembers consumer (c.step h w opens).2.state? (log ++ c.settlements w) := by
  simp only [step, settlements, hp]
  split
  case isTrue => exact .of_eq hf fun c' hs => failures_finish hs
  case isFalse =>
    cases (Channels.take w.site.store stream).2 with
    | pending => exact .of_eq hf fun c' hs => by cases hs; exact ⟨rfl, hc⟩
    | failure => exact .of_eq hf fun c' hs => by cases hs; exact ⟨rfl, by simp⟩
    | ended => exact .of_eq hf fun c' hs => by cases hs; exact ⟨rfl, by simp⟩
    | delivery d =>
      refine ⟨_, recollects_receive (h := h) hf _ channel stream d, fun c' hs => ?_⟩
      cases hs
      refine ⟨rfl, ?_⟩
      unfold receive
      dsimp only
      split
      · split <;> exact hc
      · simp

/-- A step of a consumption that has begun keeps its records in agreement. -/
theorem remembers_step (hf : Recollects consumer c.failures log) (hc : c.phase ≠ .entering)
    (w : World (Station S) C) (opens : Bool) :
    Remembers consumer (c.step h w opens).2.state? (log ++ c.settlements w) := by
  cases hp : c.phase with
  | reading channel stream => exact remembers_reading hf hc hp w opens
  | handling channel stream d v due =>
    simp only [step, settlements, hp]
    split
    · exact .of_eq hf fun c' hs => by cases hs; exact ⟨rfl, hc⟩
    · refine ⟨_, recollects_conclude hf w d v, fun c' hs => ?_⟩
      cases hs
      exact ⟨rfl, by simp⟩
  | _ =>
    -- in all other phases nothing is noted
    have hn : c.settlements w = [] := by simp only [settlements, hp]
    rw [hn]
    exact .of_eq hf fun c' hs =>
      (c.goes_step h w opens).failures hs hc (by simp [hp]) (by simp [hp])

/-- A redelivery of a message whose failure is on record and not too old is settled with the verdict
of that failure. The handler is not called. -/
theorem step_of_redelivery (hf : Recollects consumer c.failures log) {channel : C}
    {stream : Nat} (hp : c.phase = .reading channel stream)
    (hcanceled : w.isCanceled c.context = false) {store : S} {d : Delivery}
    (ht : Channels.take w.site.store stream = (store, .delivery d)) {id : String}
    (hid : d.received.id? = some id) {t : Millis} {v : Verdict}
    {before between : List Failures.Note}
    (hlast : Failures.LastFailed log id t v before between)
    (hyoung : ∀ n ∈ between, ∀ t', n.time? = some t' → t' - t < consumer.timeToLive)
    (hnow : Channels.wall store - t < consumer.timeToLive) (opens : Bool) :
    ∃ failures, c.step h w opens =
      ((settle (withStore w store) d v).1, .moves { c with failures }) := by
  rw [← hf.timeToLive] at hyoung hnow
  have hget := hf.toRecalls.get hlast hyoung hnow
  simp only [step, hp, hcanceled, Bool.false_eq_true, if_false, ht, receive, hid]
  rw [show (c.failures.get (Channels.wall (withStore w store).site.store) id).2 = some v from hget]
  dsimp only
  cases (settle (withStore w store) d v).2 with
  | error => exact ⟨_, rfl⟩
  | ok => exact ⟨_, rfl⟩

end Consumption

/-! ## Runs -/

namespace Vigil

omit [Site S C] [Channels S C] in
theorem getLeft?_goOn (s : Step (Consumption C) Consumption.Result) :
    (goOn s).getLeft? = s.state? := by
  cases s <;> rfl

/-- A move keeps the records in agreement. -/
theorem remembers_move {y : Vigil S C} (hy : Remembers consumer y.call.getLeft? log)
    (m : Move S C) :
    Remembers consumer (y.step h m).call.getLeft? (log ++ y.settlements m) := by
  obtain ⟨f, hf, hc⟩ := hy
  cases m with
  | drift =>
    rw [settlements, List.append_nil]
    exact ⟨f, hf, hc⟩
  | work opens =>
    obtain ⟨w, c | result, notes⟩ := y
    · obtain ⟨rfl, hne⟩ := hc c rfl
      have hcall : (step h ⟨w, .inl c, notes⟩ (.work opens)).call.getLeft? =
          (c.step h w opens).2.state? := getLeft?_goOn _
      rw [hcall]
      exact Consumption.remembers_step hf hne w opens
    · rw [settlements, List.append_nil]
      exact ⟨f, hf, hc⟩

/-- A list of moves keeps the records in agreement. -/
theorem remembers_moves (moves : List (Move S C)) {y : Vigil S C}
    (hy : Remembers consumer y.call.getLeft? log) :
    Remembers consumer (moves.foldl (step h) y).call.getLeft? (log ++ history h y moves) := by
  -- the history grows at its end, so what was noted before is part of the induction
  induction moves generalizing y log with
  | nil =>
    rw [history, List.append_nil]
    exact hy
  | cons m rest ih =>
    rw [history, ← List.append_assoc]
    exact ih (remembers_move hy m)

end Vigil

/-- What a consumption makes of redeliveries when it has got somewhere with a history of failed
settlements. -/
structure Retries (h : Handler (World (Station S) C)) (consumer : Consumer) (y : Vigil S C)
    (log : List Failures.Note) : Prop where
  /-- If the last settlement under the name of a message has failed, and that is never seen to be
  too old until the message is read again, then it is settled with the verdict of that failure, and
  nothing but the records of the consumption changes beside. -/
  redelivered : ∀ c channel stream store d id t v before between opens,
    y.call = .inl c → c.phase = .reading channel stream →
    y.world.isCanceled c.context = false →
    Channels.take y.world.site.store stream = (store, .delivery d) → d.received.id? = some id →
    Failures.LastFailed log id t v before between →
    (∀ n ∈ between, ∀ t', n.time? = some t' → t' - t < consumer.timeToLive) →
    Channels.wall store - t < consumer.timeToLive →
    ∃ failures, c.step h y.world opens =
      ((Consumption.settle (withStore y.world store) d v).1, .moves { c with failures })
  /-- A failure has given way only when there was no room, and then all others that were on record
  had come after it. -/
  evicted : ∀ before between after t id v,
    log = before ++ .failed t id v :: (between ++ .evicted id :: after) →
    (∀ n ∈ between, n.concerns id = false) → ∃ ids : List String, ids.Nodup ∧
      max consumer.capacity 1 ≤ ids.length + 1 ∧
      ∀ k ∈ ids, ∃ t w front rest, Failures.LastFailed between k t w front rest

/-- Whatever happens in the world beside it, a consumption does not handle a message again whose
settlement has failed. -/
theorem redelivered_run (h : Handler (World (Station S) C)) (w : World (Station S) C)
    (consumer : Consumer) (context queue : String) (moves : List (Vigil.Move S C)) :
    Retries h consumer (Vigil.run h w consumer context queue moves)
      (Vigil.history h { world := w, call := .inl (Vigil.begun w consumer context queue) }
        moves) := by
  have hbegun : Remembers consumer (some (Vigil.begun w consumer context queue)) [] :=
    ⟨_, .empty consumer, fun c hc => by cases hc; exact ⟨rfl, nofun⟩⟩
  obtain ⟨f, hf, hc⟩ := Vigil.remembers_moves (h := h) moves
    (y := { world := w, call := .inl (Vigil.begun w consumer context queue) }) hbegun
  rw [List.nil_append] at hf
  refine ⟨fun c channel stream store d id t v before between opens hcall hp hcanceled ht hid hlast
    hyoung hnow => ?_, fun before between after t id v hlog hquiet => ?_⟩
  · obtain ⟨rfl, -⟩ := hc c (Sum.getLeft?_eq_some_iff.2 hcall)
    exact Consumption.step_of_redelivery hf hp hcanceled ht hid hlast hyoung hnow opens
  · obtain ⟨ids, hnodup, hroom, hids⟩ := hf.evictions before between after t id v hlog hquiet
    rw [hf.capacity] at hroom
    exact ⟨ids, hnodup, hroom, hids⟩

/-- A world in which a message waits in a queue, and the next settlement fails. -/
def unsettledWorld : Rehearsal.HubWorld :=
  let hub := Rehearsal.freshWorld.site.store.declareQueue ⟨"q", true, false, false⟩
  withStore Rehearsal.freshWorld { hub.inject "q" [] (some "m1") with failingSettlements := 1 }

/-- That message when it is delivered again. -/
def redelivery : Delivery :=
  ⟨"q", { body := [], headers := .ofList [(messageIdHeader, "m1")], redelivered := true }⟩

/-- What the handler is at work on. -/
def Consumption.handles? (c : Consumption C) : Option Delivery :=
  match c.phase with
  | .handling _ _ d _ _ => some d
  | _ => none

/-- The channel and the stream that are read. -/
def Consumption.reads? (c : Consumption C) : Option (C × Nat) :=
  match c.phase with
  | .reading channel stream => some (channel, stream)
  | _ => none

omit [Site S C] [Channels S C] in
theorem Consumption.phase_of_reads? {c : Consumption C} {channel : C} {stream : Nat}
    (hr : c.reads? = some (channel, stream)) : c.phase = .reading channel stream := by
  unfold reads? at hr
  split at hr
  case h_1 hp =>
    cases hr
    exact hp
  case h_2 => cases hr

/-- A message whose settlement has failed is settled when it is delivered again, and the handler has
been called once. -/
theorem settled_at_redelivery :
    let consumer : Consumer := { client := Rehearsal.freshTopology.client }
    let y := Vigil.run .accepting unsettledWorld consumer "go" "q" (List.replicate 6 (.work true))
    ∃ c failures, y.call = .inl c ∧ c.handled = 1 ∧ c.step .accepting y.world true =
      ((Consumption.settle (withStore y.world (y.world.site.store.take 1).1) redelivery .accept).1,
        .moves { c with failures }) := by
  intro consumer y
  let log := Vigil.history .accepting
    { world := unsettledWorld, call := .inl (Vigil.begun unsettledWorld consumer "go" "q") }
    (List.replicate 6 (.work true))
  have hretries : Retries .accepting consumer y log := redelivered_run ..
  have hreads : y.call.getLeft?.bind Consumption.reads? = some (1, 1) := by decide +kernel
  have hhandled : y.call.getLeft?.map Consumption.handled = some 1 := by decide +kernel
  have hcontext : y.call.getLeft?.map Consumption.context = some "go" := by decide +kernel
  obtain ⟨c, hc, hr⟩ := Option.bind_eq_some_iff.1 hreads
  rw [hc, Option.map_some, Option.some_inj] at hhandled hcontext
  have hcall : y.call = .inl c := Sum.getLeft?_eq_some_iff.1 hc
  have hstream : y.world.site.store.streams.get? 1 = some [redelivery] := by decide +kernel
  have hcanceled : y.world.isCanceled c.context = false := by
    rw [hcontext]
    decide +kernel
  have htake : Channels.take y.world.site.store 1 =
      ((y.world.site.store.take 1).1, .delivery redelivery) := by
    simp only [Channels.take, Rehearsal.Hub.take, hstream]
  have hnow : Channels.wall (y.world.site.store.take 1).1 - 0 < consumer.timeToLive := by
    decide +kernel
  have hlast : Failures.LastFailed log "m1" 0 .accept [.looked 0, .looked 0] [] :=
    ⟨by decide +kernel, by simp⟩
  have hid : redelivery.received.id? = some "m1" := by decide +kernel
  obtain ⟨failures, hstep⟩ := hretries.redelivered c 1 1 _ redelivery "m1" 0 .accept _ _ true hcall
    (Consumption.phase_of_reads? hr) hcanceled htake hid hlast (by simp) hnow
  exact ⟨c, failures, hcall, hhandled, hstep⟩

/-- A message is handled, its settlement fails because the connections are going down, and the
consumption ends well. The next one of the same consumer handles the message again, although its
failure is not too old. -/
theorem handled_again :
    ∃ (consumer : Consumer) (moves moves' : List (Vigil.Move Rehearsal.Hub Nat)),
      let w := unsettledWorld
      let first := Vigil.run .accepting w consumer "go" "q" moves
      let log := Vigil.history .accepting
        { world := w, call := .inl (Vigil.begun w consumer "go" "q") } moves
      let second := Vigil.run .accepting first.world consumer "again" "q" moves'
      Vigil.GoesOn moves ∧ Vigil.GoesOn moves' ∧ first.call = .inr (.ok ()) ∧
      (∃ before, Failures.LastFailed log "m1" 0 .accept before []) ∧
      Channels.wall second.world.site.store - 0 < consumer.timeToLive ∧
      second.call.getLeft?.bind Consumption.handles? = some redelivery := by
  -- the stream is lost before the settlement, so the message is put back and stays in the queue
  let loss (w : Rehearsal.HubWorld) := withStore w w.site.store.dropConsumers
  let stop (w : Rehearsal.HubWorld) := w.cancel "go"
  refine ⟨{ client := Rehearsal.freshTopology.client },
    List.replicate 5 (.work true) ++ .drift loss :: .work true :: .drift stop ::
      List.replicate 6 (.work true), List.replicate 5 (.work true), ?_⟩
  intro w first log second
  refine ⟨fun f hf => ?_, fun f hf => ?_, ?_,
    ⟨[.looked 0, .looked 0], by decide +kernel, nofun⟩, by decide +kernel, by decide +kernel⟩
  · have hf : f = loss ∨ f = stop := by simpa using hf
    rcases hf with rfl | rfl
    · exact fun w => (Level.withStore w _).toOnward
    · exact fun w => .cancel w "go"
  · simp at hf
  · have hend : first.call.getRight? = some (.ok ()) := by decide +kernel
    exact Sum.getRight?_eq_some_iff.1 hend

end Reconnect.Broker
