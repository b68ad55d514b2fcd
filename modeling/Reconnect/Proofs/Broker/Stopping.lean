import Reconnect.Proofs.Broker.Endurance
import Reconnect.Proofs.Broker.Redelivery

/-!
# What a consumption takes once its process is stopped

Two contexts can stop a consumption: the one it is given and the one of its client, in which the
whole process runs. Before a stream is open it heeds both, so once either has been canceled no
stream is opened any more. While it reads a stream it heeds the first one only: whatever it takes
after the process has been stopped comes from the stream that was open then, and it takes nothing
more once that has ended or its own context is canceled as well (`ceases_run`). A stream that is
open goes on being read: `taken_after_cancellation`.
-/

namespace Reconnect.Broker

variable {S C : Type}

namespace Consumption

/-- The stream that a consumption has open. -/
def stream? (c : Consumption C) : Option Nat :=
  match c.phase with
  | .reading _ stream | .handling _ stream _ _ _ => some stream
  | _ => none

variable [Channels S C]

/-- What a consumption takes from its stream in its next step. -/
def takes? (w : World (Station S) C) (c : Consumption C) : Option (Nat × Delivery) :=
  match c.phase with
  | .reading _ stream =>
    if w.isCanceled c.context then none
    else
      match (Channels.take w.site.store stream).2 with
      | .delivery d => some (stream, d)
      | _ => none
  | _ => none

theorem reading_of_takes? {w : World (Station S) C} {c : Consumption C} {t : Nat × Delivery}
    (ht : c.takes? w = some t) :
    (∃ channel, c.phase = .reading channel t.1) ∧ w.isCanceled c.context = false := by
  unfold takes? at ht
  split at ht
  case h_1 channel stream hp =>
    split at ht
    · cases ht
    case isFalse hc =>
      rw [Bool.not_eq_true] at hc
      split at ht
      · cases ht
        exact ⟨⟨channel, hp⟩, hc⟩
      · cases ht
  case h_2 => cases ht

end Consumption

namespace Vigil

variable [Site S C] [Channels S C]

/-- The stream that the consumption has open. -/
def stream? (y : Vigil S C) : Option Nat := y.call.getLeft?.bind Consumption.stream?

/-- What the consumption takes from its stream in a move. -/
def takes (y : Vigil S C) : Move S C → List (Nat × Delivery)
  | .work _ => (y.call.getLeft?.bind (Consumption.takes? y.world)).toList
  | .drift _ => []

/-- What the consumption takes along a list of moves, and from which streams. -/
def taken (h : Handler (World (Station S) C)) : Vigil S C → List (Move S C) →
    List (Nat × Delivery)
  | _, [] => []
  | y, m :: rest => y.takes m ++ taken h (y.step h m) rest

/-- Whether the first step of the consumption among some moves opens a turn of it. -/
def OpensTurn : List (Move S C) → Prop
  | [] => True
  | .work opens :: _ => opens = true
  | .drift _ :: rest => OpensTurn rest

end Vigil

/-! ## A consumption whose process has been stopped -/

/-- What a consumption can be about once the context of its client has been canceled: it may read
the stream that was open, and a request to open another one is given up before it is made, or in the
next step where that opens a turn (`due`). -/
def Winding (client : Client) (stream? : Option Nat) (due : Bool) : Consumption.Phase C → Prop
  | .reading _ stream | .handling _ stream _ _ _ => stream? = some stream
  | .opening _ e => e.client = client ∧ (due = false → ∃ timeout, e.phase = .entering timeout)
  | _ => True

section Steps

variable [Site S C] [Channels S C] {h : Handler (World (Station S) C)}
  {w w' : World (Station S) C} {opens due : Bool} {c c' : Consumption C} {client : Client}
  {stream? : Option Nat} {s : Step (Consumption C) Consumption.Result}

omit [Site S C] [Channels S C] in
theorem winding_finish {result : Consumption.Result}
    (hs : (Consumption.finish w c result).2.state? = some c') :
    Winding client stream? false c'.phase := by
  unfold Consumption.finish at hs
  split at hs <;> cases hs
  trivial

omit [Site S C] [Channels S C] in
theorem winding_retry {again : Bool} {time : Millis}
    (hs : (Consumption.retry w c again time).2.state? = some c') :
    Winding client stream? false c'.phase := by
  cases hs
  dsimp only
  split <;> trivial

omit [Site S C] in
theorem phase_receive (channel : C) (stream : Nat) (d : Delivery) :
    (Consumption.receive h w c channel stream d).2.phase = c.phase ∨
      ∃ v due, (Consumption.receive h w c channel stream d).2.phase =
        .handling channel stream d v due := by
  unfold Consumption.receive
  dsimp only
  split
  · split <;> exact .inl rfl
  · exact .inr ⟨_, _, rfl⟩

/-- No stream is opened any more. -/
theorem Consumption.Goes.winding (hg : c.Goes h w opens w' s)
    (hclient : c.consumer.client.client = client) (hcan : w.isCanceled client.context = true)
    (hw : Winding client stream? due c.phase) (ho : due = true → opens = true)
    (hs : s.state? = some c') : Winding client stream? false c'.phase := by
  -- an execution that would open a stream is given up in this step
  have hends : ∀ {again : Bool} {e : Execution C} {w₁ : World (Station S) C}
      {s₁ : Step (Execution C) (Execution.Outcome (Reply C))}, c.phase = .opening again e →
      e.Goes (asking (.consume c.queue)) w opens w₁ s₁ →
        s₁ = e.finish (.error .contextCanceled) := by
    intro again e w₁ s₁ hp he
    rw [hp] at hw
    refine he.of_canceled (hw.1 ▸ hcan) ?_
    cases due with
    | true => exact .inl (ho rfl)
    | false => exact .inr (hw.2 rfl)
  cases hg with
  | canceled => exact winding_finish hs
  | current => cases hs; exact ⟨hclient, fun _ => ⟨_, rfl⟩⟩
  | restores _ _ _ _ hs' => cases hs.symm.trans hs'; trivial
  | restored => cases hs; exact ⟨hclient, fun _ => ⟨_, rfl⟩⟩
  | restoreLate => exact winding_retry hs
  | restoreFailed => exact winding_finish hs
  | opens _ hp he hs₁ => rw [hends hp he] at hs₁; cases hs₁
  | opened _ hp he => cases hends hp he
  | openLate => exact winding_retry hs
  | openFailed => exact winding_finish hs
  | recovers _ _ _ _ hs' => cases hs.symm.trans hs'; trivial
  | recoverFailed => exact winding_finish hs
  | readCanceled => exact winding_finish hs
  | pending hp => cases hs; rw [hp] at hw ⊢; exact hw
  | @delivered channel stream d w₁ hp =>
    cases hs
    rw [hp] at hw
    rcases phase_receive (h := h) (w := w₁) (c := c) channel stream d with hr | ⟨v, till, hr⟩
    · rw [hr, hp]; exact hw
    · rw [hr]; exact hw
  | yields hp => cases hs; rw [hp]; trivial
  | handles hp => cases hs; rw [hp] at hw ⊢; exact hw
  | handled hp => cases hs; rw [hp] at hw; exact hw
  | leaves _ hs' => cases hs.symm.trans hs'; trivial
  | left => cases hs
  | _ => cases hs; trivial

omit [Site S C] [Channels S C] in
theorem handled_finish {result : Consumption.Result}
    (hs : (Consumption.finish w c result).2.state? = some c') : c'.handled = c.handled := by
  unfold Consumption.finish at hs
  split at hs <;> cases hs
  rfl

/-- The handler is called for what is taken only. -/
theorem Consumption.handled_of_takes? (ht : c.takes? w = none)
    (hs : (c.step h w opens).2.state? = some c') : c'.handled = c.handled := by
  cases hp : c.phase with
  | reading channel stream =>
    simp only [takes?, step, hp] at ht hs
    split at hs
    case isTrue => exact handled_finish hs
    case isFalse hn =>
      rw [if_neg hn] at ht
      split at hs <;> first | (cases hs; rfl) | simp_all
  | _ =>
    -- in every other phase the rules leave the count alone
    have hg := c.goes_step h w opens
    generalize (c.step h w opens).1 = w' at hg
    generalize (c.step h w opens).2 = s at hg hs
    cases hg with
    | canceled => exact handled_finish hs
    | restores _ _ _ _ hs' => cases hs.symm.trans hs'; rfl
    | restoreFailed => exact handled_finish hs
    | opens _ _ _ _ hs' => cases hs.symm.trans hs'; rfl
    | openFailed => exact handled_finish hs
    | recovers _ _ _ _ hs' => cases hs.symm.trans hs'; rfl
    | recoverFailed => exact handled_finish hs
    | readCanceled => exact handled_finish hs
    | delivered hp' => rw [hp] at hp'; cases hp'
    | handled =>
      cases hs
      unfold conclude
      dsimp only
      split <;> rfl
    | leaves _ hs' => cases hs.symm.trans hs'; rfl
    | _ => cases hs <;> rfl

end Steps

/-! ## Runs -/

namespace Vigil

variable [Site S C] [Channels S C] {h : Handler (World (Station S) C)} {consumer : Consumer}
  {context queue : String} {y : Vigil S C} {due : Bool} {open? : Option Nat}

/-- A consumption whose process has been stopped, on its way. -/
structure Winds (consumer : Consumer) (context : String) (open? : Option Nat) (due : Bool)
    (y : Vigil S C) : Prop where
  canceled : y.world.isCanceled consumer.client.client.context = true
  call : ∀ c, y.call = .inl c → c.consumer = consumer ∧ c.context = context ∧
    Winding consumer.client.client open? due c.phase

theorem state?_of_work {w : World (Station S) C} {c c' : Consumption C} {log : List Note}
    {opens : Bool} (hs : (step h ⟨w, .inl c, log⟩ (.work opens)).call = .inl c') :
    (c.step h w opens).2.state? = some c' := by
  have hcall : goOn (c.step h w opens).2 = .inl c' := hs
  rw [← getLeft?_goOn, hcall]
  rfl

theorem Winds.work (hy : y.Winds consumer context open? due) (hh : h.IsLevel) {opens : Bool}
    (ho : due = true → opens = true) :
    (y.step h (.work opens)).Winds consumer context open? false := by
  obtain ⟨w, c | result, log⟩ := y
  · obtain ⟨hconsumer, hcontext, hw⟩ := hy.call c rfl
    have hg := c.goes_step h w opens
    refine ⟨hg.isCanceled hh hy.canceled, fun c' hs => ?_⟩
    have hs' := state?_of_work hs
    have hsame := hg.same hs'
    exact ⟨hsame.1.trans hconsumer, hsame.2.trans hcontext,
      hg.winding (by rw [hconsumer]) hy.canceled hw ho hs'⟩
  · have hended : (step h ⟨w, .inr result, log⟩ (.work opens)).call = .inr result := rfl
    refine ⟨hy.canceled, fun c hc => ?_⟩
    rw [hended] at hc
    cases hc

theorem Winds.drift (hy : y.Winds consumer context open? due)
    {f : World (Station S) C → World (Station S) C} (hf : ∀ w, Onward w (f w)) :
    (y.step h (.drift f)).Winds consumer context open? due :=
  ⟨(hf y.world).canceled _ hy.canceled, hy.call⟩

omit [Site S C] in
/-- What is taken in a move comes from the stream that was open. -/
theorem Winds.takes (hy : y.Winds consumer context open? due) (m : Move S C) :
    ∀ t ∈ y.takes m, open? = some t.1 := by
  intro t ht
  cases m with
  | drift => cases ht
  | work =>
    obtain ⟨c, hc, ht⟩ := Option.bind_eq_some_iff.1 (Option.mem_toList.1 ht)
    obtain ⟨⟨channel, hp⟩, -⟩ := Consumption.reading_of_takes? ht
    obtain ⟨-, -, hw⟩ := hy.call c (Sum.getLeft?_eq_some_iff.1 hc)
    rw [hp] at hw
    exact hw

omit [Site S C] [Channels S C] in
theorem GoesOn.tail {m : Move S C} {rest : List (Move S C)} (hm : GoesOn (m :: rest)) :
    GoesOn rest :=
  fun f hf => hm f (List.mem_cons_of_mem m hf)

/-- What is taken along some moves comes from the stream that was open. -/
theorem Winds.taken (hh : h.IsLevel) {moves : List (Move S C)} (hm : GoesOn moves)
    (hy : y.Winds consumer context open? due) (ho : due = true → OpensTurn moves) :
    ∀ t ∈ y.taken h moves, open? = some t.1 := by
  induction moves generalizing y due with
  | nil => nofun
  | cons m rest ih =>
    intro t ht
    rcases List.mem_append.1 ht with ht | ht
    · exact hy.takes m t ht
    · cases m with
      | work opens => exact ih hm.tail (hy.work hh ho) nofun t ht
      | drift f => exact ih hm.tail (hy.drift (hm f List.mem_cons_self)) ho t ht

/-- A consumption whose own context has been canceled takes nothing more. -/
theorem taken_of_canceled (hh : h.IsLevel) {moves : List (Move S C)} (hm : GoesOn moves)
    (hc : y.world.isCanceled context = true) (hy : ∀ c, y.call = .inl c → c.context = context) :
    y.taken h moves = [] := by
  induction moves generalizing y with
  | nil => rfl
  | cons m rest ih =>
    cases m with
    | drift f => exact ih hm.tail ((hm f List.mem_cons_self y.world).canceled _ hc) hy
    | work opens =>
      obtain ⟨w, c | result, log⟩ := y
      · have hcontext := hy c rfl
        have hg := c.goes_step h w opens
        have hnone : c.takes? w = none := by
          cases ht : c.takes? w with
          | none => rfl
          | some t =>
            have hn := (Consumption.reading_of_takes? ht).2
            rw [hcontext, hc] at hn
            cases hn
        have hrest : taken h (step h ⟨w, .inl c, log⟩ (.work opens)) rest = [] :=
          ih hm.tail (hg.isCanceled hh hc) fun c' hs =>
            (hg.same (state?_of_work hs)).2.trans hcontext
        have htakes : takes ⟨w, .inl c, log⟩ (.work opens) = [] :=
          congrArg Option.toList hnone
        rw [taken, htakes, hrest, List.nil_append]
      · exact ih hm.tail hc hy

/-- Where nothing is taken, the handler is not called. -/
theorem handled_of_taken_eq_nil {moves : List (Move S C)} (ht : y.taken h moves = [])
    {c' : Consumption C} (hc : (moves.foldl (step h) y).call = .inl c') :
    ∃ c, y.call = .inl c ∧ c'.handled = c.handled := by
  induction moves generalizing y with
  | nil => exact ⟨c', hc, rfl⟩
  | cons m rest ih =>
    rw [taken, List.append_eq_nil_iff] at ht
    obtain ⟨c₁, hc₁, hhandled⟩ := ih ht.2 hc
    cases m with
    | drift => exact ⟨c₁, hc₁, hhandled⟩
    | work opens =>
      obtain ⟨w, c | result, log⟩ := y
      · refine ⟨c, rfl, hhandled.trans ?_⟩
        have hnone : c.takes? w = none := Option.toList_eq_nil_iff.1 ht.1
        exact Consumption.handled_of_takes? hnone (state?_of_work hc₁)
      · cases hc₁

/-- What a consumption does from a time on at which its process has been stopped. -/
structure Ceases (h : Handler (World (Station S) C)) (context : String) (y : Vigil S C)
    (after : List (Move S C)) : Prop where
  /-- It opens no stream: whatever it takes comes from the one that is open. -/
  drained : ∀ t ∈ y.taken h after, y.stream? = some t.1
  /-- If its own context has been canceled too, or no stream is open, it takes nothing more and
  calls its handler no more. -/
  silent : y.world.isCanceled context = true ∨ y.stream? = none → y.taken h after = [] ∧
    ∀ c', (after.foldl (step h) y).call = .inl c' → ∃ c, y.call = .inl c ∧ c'.handled = c.handled

/-- Whatever a consumption is about when its process is stopped, and whatever happens in the world
beside it, it ceases. -/
theorem ceases_run (hh : h.IsLevel) (w : World (Station S) C) {before after : List (Move S C)}
    (hm : GoesOn (before ++ after))
    (hc : (run h w consumer context queue before).world.isCanceled
      consumer.client.client.context = true) (ho : OpensTurn after) :
    Ceases h context (run h w consumer context queue before) after := by
  have hbefore : GoesOn before := fun f hf => hm f (List.mem_append_left _ hf)
  have hafter : GoesOn after := fun f hf => hm f (List.mem_append_right _ hf)
  have hholds : Holds consumer context (run h w consumer context queue before) :=
    run_induction hbefore ⟨rfl, rfl, trivial⟩ (fun _ opens hy => holds_step hh hy opens)
      fun _ _ hf hy => holds_drift hy hf
  generalize run h w consumer context queue before = y at hc hholds
  have hcall : ∀ c, y.call = .inl c → c.consumer = consumer ∧ c.context = context ∧
      Winding consumer.client.client y.stream? true c.phase := by
    intro c hy
    rw [Holds, hy] at hholds
    obtain ⟨hconsumer, hcontext, hminds⟩ := hholds
    refine ⟨hconsumer, hcontext, ?_⟩
    have hstream : y.stream? = c.stream? := by rw [stream?, hy]; rfl
    rw [hstream]
    cases hp : c.phase with
    | reading => simp [Winding, Consumption.stream?, hp]
    | handling => simp [Winding, Consumption.stream?, hp]
    | opening again e =>
      rw [hp] at hminds
      exact ⟨hminds, fun hdue => by cases hdue⟩
    | _ => trivial
  have hdrained := Winds.taken hh hafter ⟨hc, hcall⟩ fun _ => ho
  refine ⟨hdrained, fun hsilent => ?_⟩
  have hnone : y.taken h after = [] := by
    rcases hsilent with hcanceled | hclosed
    · exact taken_of_canceled hh hafter hcanceled fun c hy => (hcall c hy).2.1
    · refine List.eq_nil_iff_forall_not_mem.2 fun t ht => ?_
      rw [hdrained t ht] at hclosed
      cases hclosed
  exact ⟨hnone, fun _ hend => handled_of_taken_eq_nil hnone hend⟩

/-- A world in which a message waits in a queue. -/
def waitingWorld : Rehearsal.HubWorld :=
  let hub := Rehearsal.freshWorld.site.store.declareQueue ⟨"q", true, false, false⟩
  withStore Rehearsal.freshWorld (hub.inject "q" [] (some "m1"))

/-- A consumption whose process is stopped while it opens its stream ends, and the message that
waits is not taken. -/
theorem stopped_while_opening :
    let consumer : Consumer := { client := Rehearsal.freshTopology.client }
    let y := Vigil.run .accepting waitingWorld consumer "go" "q"
      (List.replicate 3 (.work true) ++ [.drift (·.cancel "root")])
    let after := List.replicate 6 (.work true)
    Ceases .accepting "go" y after ∧ y.taken .accepting after = [] ∧
      (after.foldl (step .accepting) y).call = .inr (.ok ()) := by
  intro consumer y after
  have hceases : Ceases .accepting "go" y after := by
    refine ceases_run Handler.isLevel_accepting waitingWorld (fun f hf w => ?_) (by decide +kernel)
      rfl
    have hf : f = (·.cancel "root") := by simpa [after] using hf
    exact hf ▸ .cancel w "root"
  exact ⟨hceases, (hceases.silent (.inr (by decide +kernel))).1,
    Sum.getRight?_eq_some_iff.1 (by decide +kernel)⟩

/-- A consumption that reads a stream when its process is stopped takes what arrives there
afterwards and calls its handler. -/
theorem taken_after_cancellation :
    ∃ (w : Rehearsal.HubWorld) (consumer : Consumer)
      (before after : List (Move Rehearsal.Hub Nat)),
      let y := Vigil.run .accepting w consumer "go" "q" before
      let y' := after.foldl (step .accepting) y
      GoesOn (before ++ after) ∧
        y.world.isCanceled consumer.client.client.context = true ∧
        y.call.getLeft?.bind Consumption.handles? = none ∧
        y.call.getLeft?.map Consumption.handled = some 0 ∧ (y.taken .accepting after).length = 1 ∧
        y'.call.getLeft?.map Consumption.handled = some 1 := by
  let stop (w : Rehearsal.HubWorld) := w.cancel "root"
  let arrive (w : Rehearsal.HubWorld) := withStore w (w.site.store.inject "q" [] (some "m2"))
  refine ⟨withStore Rehearsal.freshWorld
      (Rehearsal.freshWorld.site.store.declareQueue ⟨"q", true, false, false⟩),
    { client := Rehearsal.freshTopology.client },
    List.replicate 4 (.work true) ++ [.drift stop], [.drift arrive, .work true], ?_⟩
  refine ⟨fun f hf w => ?_, by decide +kernel, by decide +kernel, by decide +kernel,
    by decide +kernel, by decide +kernel⟩
  have hf : f = stop ∨ f = arrive := by simpa using hf
  rcases hf with rfl | rfl
  · exact .cancel w "root"
  · exact (Level.withStore w _).toOnward

end Vigil

end Reconnect.Broker
