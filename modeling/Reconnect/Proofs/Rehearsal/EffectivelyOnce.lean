import Reconnect.Proofs.Rehearsal.Consuming

/-!
# Every message is handled once

In every shift each message reaches the handler once, in the order in which the messages were
enqueued, and is settled once with the verdict on it, however many settlements fail in between. The
invariant is `Sound`, which joins the queue, the stream, the records and the log by their balance,
and bounds the steps that are left. It needs room for as many records as there are messages, and
that no record becomes too old.
-/

namespace Reconnect.Rehearsal

open Broker

/-- The states of a shift in which `all` has been enqueued, the time `t` has passed on the wall
clock, and no more than `n` steps are left until everything is settled. -/
inductive Sound (a : Assignment) (all : List Message) (t : Millis) : Nat → Shift → Prop
  | entering {n : Nat} {w : HubWorld} (hw : Unbegun a all t w)
      (hn : 2 * all.length + w.site.store.failingSettlements + 5 ≤ n) :
      Sound a all t n { world := w, call := .inl a.consumption }
  | seeking {n : Nat} {w : HubWorld} (hw : Unbegun a all t w)
      (hn : 2 * all.length + w.site.store.failingSettlements + 4 ≤ n) :
      Sound a all t n { world := w, call := .inl (a.going a.failures 0 (.seeking false)) }
  | opening {n k : Nat} {w : HubWorld} {e : Execution Nat} (hw : Unbegun a all t w)
      (he : e.client = a.consumer.client.client) (hp : Opening a e.phase k)
      (hn : 2 * all.length + w.site.store.failingSettlements + k ≤ n) :
      Sound a all t n { world := w, call := .inl (a.going a.failures 0 (.opening false e)) }
  | reading {n c : Nat} {w : HubWorld} {f : Failures} {calls log : List Judged}
      {buffer : List Message} {feed : Feed}
      (hw : Underway a t log feed buffer w) (hf : Limited a f)
      (hb : Balance all f calls log [] buffer)
      (hn : buffer = [] ∨
        buffer.length + (f.fresh buffer).length + w.site.store.failingSettlements ≤ n) :
      Sound a all t n
        { world := w, call := .inl (a.going f calls.length (.reading c feed.stream)), calls }
  | handling {n c : Nat} {w : HubWorld} {f : Failures} {calls log : List Judged}
      {buffer : List Message} {feed : Feed} {m : Message} {v : Verdict} {due : Millis}
      (hw : Underway a t log feed buffer w) (hf : Limited a f)
      (hb : Balance all f calls log [(m, v)] buffer)
      (hn : buffer.length + (f.fresh buffer).length + w.site.store.failingSettlements + 1 ≤ n) :
      Sound a all t n
        { world := w
          call := .inl (a.going f calls.length (.handling c feed.stream ⟨a.queue, m⟩ v due))
          calls }

variable {a : Assignment} {h : Handler HubWorld} {all waiting : List Message} {t : Millis}
  {n : Nat} {w : HubWorld}

/-! ## One move -/

namespace Sound

open Shift

theorem step_work {c : Consumption Nat} {calls : List Judged} {w' : HubWorld}
    {s : Step (Consumption Nat) Consumption.Result} {opens : Bool}
    (hs : c.step h (ripe w c) opens = (w', s)) :
    Shift.step h a.queue { world := w, call := .inl c, calls } (.work opens) =
      { world := w', call := goOn s, calls := calls ++ called c s } := by
  simp only [Shift.step, hs]

@[simp] theorem called_reading (before : Consumption Nat) (f : Failures) (k c stream : Nat) :
    called before (.moves (a.going f k (.reading c stream))) = [] := rfl

@[simp] theorem called_handling (f f' : Failures) (k c stream : Nat)
    (phase : Consumption.Phase Nat) (d : Delivery) (v : Verdict) (due : Millis) :
    called (a.going f k phase) (.moves (a.going f' (k + 1) (.handling c stream d v due))) =
      [(d.message, v)] :=
  if_pos (Nat.lt_succ_self k)

section Reading

variable {f : Failures} {c : Nat} {calls log : List Judged} {buffer : List Message} {feed : Feed}
  {m : Message} {v : Verdict} {due : Millis}

/-- The next message of the stream is handled, or settled with the verdict on record. -/
theorem read (hr : a.Ready waiting) (hh : Calm h) (hd : Distinct all)
    (ht : t < a.consumer.timeToLive) (hw : Underway a t log feed (m :: buffer) w)
    (hf : Limited a f) (hb : Balance all f calls log [] (m :: buffer))
    (hn : (m :: buffer).length + (f.fresh (m :: buffer)).length +
      w.site.store.failingSettlements ≤ n) (opens : Bool) :
    Sound a all t (n - 1) (Shift.step h a.queue
      { world := w, call := .inl (a.going f calls.length (.reading c feed.stream)), calls }
      (.work opens)) := by
  obtain ⟨b, htake, hw', hfail⟩ := hw.take
  obtain ⟨name, hm⟩ := hb.named_next hd
  obtain ⟨f', hget, hrecords, hf'⟩ := hf.get hw'.steady ht name
  have hb' := hb.of_records hrecords
  have hkept : f'.kept? m = f.verdict? name := by
    rw [Failures.kept?_of_records hrecords, Failures.kept?, hm]
    rfl
  have hlen := hb.length_order
  rw [step_work (step_reading hr hw.steady opens htake)]
  rw [List.length_cons] at hn
  cases hv : f.verdict? name with
  | none =>
    -- the message is new: the handler is called, and the message is to be settled
    rw [hv] at hget hkept
    simp only [receive_new hm hget, called_handling]
    generalize hr₂ : h.handle (withStore w b) calls.length (Delivery.received ⟨a.queue, m⟩) = r₂
    have hw₂ := hw'.handle hh calls.length (Delivery.received ⟨a.queue, m⟩)
    have hstore := hh.store (withStore w b) calls.length (Delivery.received ⟨a.queue, m⟩)
    have hrequeue := hh.verdict (withStore w b) calls.length (Delivery.received ⟨a.queue, m⟩)
    rw [hr₂] at hw₂ hstore hrequeue
    have hb₂ := hb'.handle hkept hrequeue
    have hlen₂ := hb₂.length_order
    have hcount : (calls ++ [(m, r₂.2.2)]).length = calls.length + 1 := List.length_append
    rw [← hcount]
    apply Sound.handling hw₂ hf' hb₂
    rw [hcount] at hlen₂
    rw [hstore]
    change _ + b.failingSettlements + 1 ≤ _
    omega
  | some v =>
    -- the message was handled before: only its settlement is tried again
    rw [hv] at hget hkept
    have hrequeue := (hb.known name v hv).1
    obtain ⟨b₂, hs, hw₂, hfail₂⟩ | ⟨b₂, hs, hw₂, hfail₂⟩ := hw'.settle hr m hrequeue
    · simp only [receive_known hm hget hs, retried, called_reading, List.append_nil]
      have hb₂ := hb'.retry hd hm hkept
      have hlen₂ := hb₂.length_order
      refine Sound.reading (c := c) hw₂ (hf'.remove name) hb₂ (.inr ?_)
      change _ + b₂.failingSettlements ≤ _
      change b₂.failingSettlements = b.failingSettlements at hfail₂
      omega
    · -- a failure is used up, so the message may come again
      simp only [receive_known hm hget hs, retried, called_reading, List.append_nil]
      have hb₂ := hb'.postpone hkept
      have hlen₂ := hb₂.length_order
      refine Sound.reading (c := c) hw₂ hf' hb₂ (.inr ?_)
      rw [List.length_append, List.length_singleton]
      change _ + b₂.failingSettlements ≤ _
      change b₂.failingSettlements + 1 = b.failingSettlements at hfail₂
      omega

/-- The message that was handled is settled, or its verdict goes on record. -/
theorem conclude (hr : a.Ready waiting) (hd : Distinct all)
    (hroom : all.length ≤ a.consumer.capacity) (ht : t < a.consumer.timeToLive)
    (hw : Underway a t log feed buffer w) (hf : Limited a f)
    (hb : Balance all f calls log [(m, v)] buffer)
    (hn : buffer.length + (f.fresh buffer).length + w.site.store.failingSettlements + 1 ≤ n)
    (opens : Bool) :
    Sound a all t (n - 1) (Shift.step h a.queue
      { world := w
        call := .inl (a.going f calls.length (.handling c feed.stream ⟨a.queue, m⟩ v due))
        calls }
      (.work opens)) := by
  let consumption := a.going f calls.length (.handling c feed.stream ⟨a.queue, m⟩ v due)
  have hripe := hw.ripe consumption
  have hdue : due ≤ (ripe w consumption).now := le_ripe_now w rfl
  have hfail := congrArg (fun s => s.store.failingSettlements) (ripe_site w consumption)
  obtain ⟨name, hm⟩ := hb.named_current hd
  have hlen := hb.length_order
  obtain ⟨b, hs, hw₂, hfail₂⟩ | ⟨b, hs, hw₂, hfail₂⟩ :=
    hripe.settle hr m (hb.verdict (m, v) List.mem_cons_self)
  · rw [step_work (step_handling hdue hm hs opens)]
    simp only [concluded, called_reading, List.append_nil]
    refine .reading hw₂ hf hb.settle (.inr ?_)
    change _ + b.failingSettlements ≤ _
    omega
  · rw [step_work (step_handling hdue hm hs opens)]
    simp only [concluded, called_reading, List.append_nil]
    -- every record is that of another message, so there is room for one more
    have hsize : f.size < a.consumer.capacity := Nat.lt_of_lt_of_le hb.size_lt hroom
    have hrecords := Failures.record_records hf.since (Limited.wall_le hw₂.steady)
      (hf.wall_lt hw₂.steady ht) (Nat.lt_of_lt_of_le hsize hf.capacity) name v
    have hb₂ := hb.keep hd hm hrecords rfl
    have hlen₂ := hb₂.length_order
    refine .reading hw₂ (hf.record hw₂.steady ht hsize name v) hb₂ (.inr ?_)
    rw [List.length_append, List.length_singleton]
    change _ + b.failingSettlements ≤ _
    omega

end Reading

/-- A step of the consumption brings it nearer to the end, if anything is left to do. -/
theorem work {y : Shift} (hr : a.Ready waiting) (hh : Calm h) (hd : Distinct all)
    (hroom : all.length ≤ a.consumer.capacity) (ht : t < a.consumer.timeToLive)
    (hs : Sound a all t n y) (opens : Bool) :
    Sound a all t (n - 1) (y.step h a.queue (.work opens)) := by
  cases hs with
  | entering hw hn =>
    rw [step_work (hw.step_entering hr opens)]
    exact .seeking hw (by omega)
  | seeking hw hn =>
    rw [step_work (hw.step_seeking hr opens)]
    refine .opening (k := 3) ⟨hw.steady.draw, hw.unfed, hw.settled⟩ rfl (.entering _) ?_
    exact Nat.le_sub_of_add_le hn
  | @opening k w e hw he hp hn =>
    obtain ⟨e', k', hs, he', hp', hk⟩ | ⟨c, o, hs, ho, hk⟩ := hw.step_execution hr he hp opens
    · rw [step_work (step_opening hr hw.steady hs)]
      exact .opening hw he' hp' (by omega)
    · -- the stream is open, and all that has waited in the queue is in it
      rw [step_work (step_opened hr hw.steady hs ho)]
      have hb : Balance all a.failures [] [] [] all := .start all rfl
      have hlen := hb.length_order
      have hfail : (withStore w (w.site.store.consume c a.queue).1).site.store.failingSettlements =
          w.site.store.failingSettlements := (hw.unfed.consume c).2.2.failingSettlements
      refine .reading (hw.underway c) (.start a) hb (.inr ?_)
      rw [List.length_nil] at hlen
      omega
  | @reading c w f calls log buffer feed hw hf hb hn =>
    cases buffer with
    | nil =>
      -- the stream is empty, so the consumption waits and nothing changes
      rw [step_work (step_idle hr hw.steady opens hw.fed.take_nil)]
      have hnone : called (a.going f calls.length (.reading c feed.stream))
        (.waits (a.going f calls.length (.reading c feed.stream))) = [] := rfl
      rw [hnone, List.append_nil]
      exact .reading hw hf hb (.inl rfl)
    | cons m rest =>
      obtain hn | hn := hn
      · cases hn
      · exact read hr hh hd ht hw hf hb hn opens
  | handling hw hf hb hn => exact conclude hr hd hroom ht hw hf hb hn opens

/-- Time passes. -/
theorem pass {y : Shift} (hs : Sound a all t n y) (clock wall : Millis) :
    Sound a all (t + wall) n (y.step h a.queue (.pass clock wall)) := by
  cases hs with
  | entering hw hn => exact .entering (hw.pass _ wall) hn
  | seeking hw hn => exact .seeking (hw.pass _ wall) hn
  | opening hw he hp hn => exact .opening (hw.pass _ wall) he hp hn
  | reading hw hf hb hn => exact .reading (hw.pass _ wall) hf hb hn
  | handling hw hf hb hn => exact .handling (hw.pass _ wall) hf hb hn

/-- Settlements are made to fail. -/
theorem fail {y : Shift} (hs : Sound a all t n y) (count : Nat) :
    Sound a all t (n + count) (y.step h a.queue (.fail count)) := by
  cases hs with
  | entering hw hn =>
    refine .entering (hw.fail _) ?_
    change _ + count + 5 ≤ _
    omega
  | seeking hw hn =>
    refine .seeking (hw.fail _) ?_
    change _ + count + 4 ≤ _
    omega
  | opening hw he hp hn =>
    refine .opening (hw.fail _) he hp ?_
    change _ + count + _ ≤ _
    omega
  | reading hw hf hb hn =>
    refine .reading (hw.fail _) hf hb (hn.imp_right ?_)
    intro hn
    change _ + count ≤ _
    omega
  | handling hw hf hb hn =>
    refine .handling (hw.fail _) hf hb ?_
    change _ + count + 1 ≤ _
    omega

/-- Another message is enqueued. -/
theorem enqueue {y : Shift} {m : Message} (hd : Distinct (all ++ [m])) (hs : Sound a all t n y) :
    ∃ n', Sound a (all ++ [m]) t n' (y.step h a.queue (.enqueue m)) := by
  cases hs with
  | entering hw hn => exact ⟨_, .entering (hw.enqueue m) (Nat.le_refl _)⟩
  | seeking hw hn => exact ⟨_, .seeking (hw.enqueue m) (Nat.le_refl _)⟩
  | opening hw he hp hn => exact ⟨_, .opening (hw.enqueue m) he hp (Nat.le_refl _)⟩
  | reading hw hf hb hn =>
    exact ⟨_, .reading (hw.enqueue m) hf (hb.enqueue hd) (.inr (Nat.le_refl _))⟩
  | handling hw hf hb hn =>
    exact ⟨_, .handling (hw.enqueue m) hf (hb.enqueue hd) (Nat.le_refl _)⟩

/-- How many steps are left at most. -/
theorem bounded {y : Shift} (hs : Sound a all t n y) :
    Sound a all t (2 * all.length + y.world.site.store.failingSettlements + 5) y := by
  cases hs with
  | entering hw hn => exact .entering hw (Nat.le_refl _)
  | seeking hw hn => exact .seeking hw (Nat.le_succ _)
  | @opening k w e hw he hp hn =>
    exact .opening hw he hp (Nat.add_le_add_left hp.bounds.2 _)
  | reading hw hf hb hn =>
    have hlen := hb.length_order
    have hlen' := hb.length_buffer_le
    refine .reading hw hf hb (.inr ?_)
    dsimp only
    omega
  | handling hw hf hb hn =>
    have hlen := hb.length_order
    have hlen' := hb.length_buffer_le
    apply Sound.handling hw hf hb
    dsimp only
    omega

/-- One move. -/
theorem step {y : Shift} (hr : a.Ready waiting) (hh : Calm h) (hs : Sound a all t n y)
    (move : Move) (hd : Distinct (all ++ move.enqueued))
    (hroom : (all ++ move.enqueued).length ≤ a.consumer.capacity)
    (ht : t + move.elapsed < a.consumer.timeToLive) :
    ∃ n', Sound a (all ++ move.enqueued) (t + move.elapsed) n' (y.step h a.queue move) ∧
      (move.isQuiet = true → n' ≤ n - move.steps) := by
  cases move with
  | work opens =>
    have hnone : all ++ (Move.work opens).enqueued = all := List.append_nil all
    rw [hnone] at hd hroom ⊢
    exact ⟨n - 1, hs.work hr hh hd hroom ht opens, fun _ => Nat.le_refl _⟩
  | pass clock wall =>
    have hnone : all ++ (Move.pass clock wall).enqueued = all := List.append_nil all
    rw [hnone] at hd hroom ⊢
    exact ⟨n, hs.pass clock wall, fun _ => Nat.le_refl _⟩
  | fail count =>
    have hnone : all ++ (Move.fail count).enqueued = all := List.append_nil all
    rw [hnone] at hd hroom ⊢
    exact ⟨n + count, hs.fail count, nofun⟩
  | enqueue m =>
    obtain ⟨n', hs'⟩ := hs.enqueue (h := h) hd
    exact ⟨n', hs', nofun⟩

/-- Any moves, one after the other. -/
theorem foldl_step {y : Shift} (hr : a.Ready waiting) (hh : Calm h) (hs : Sound a all t n y)
    (moves : List Move) (hd : Distinct (all ++ enqueued moves))
    (hroom : (all ++ enqueued moves).length ≤ a.consumer.capacity)
    (ht : t + elapsed moves < a.consumer.timeToLive) :
    ∃ n', Sound a (all ++ enqueued moves) (t + elapsed moves) n'
        (moves.foldl (Shift.step h a.queue) y) ∧
      ((∀ move ∈ moves, move.isQuiet = true) → n' ≤ n - steps moves) := by
  -- the invariant names the messages, the time and the steps so far, so all three vary
  induction moves generalizing y all t n with
  | nil =>
    rw [enqueued, List.flatMap_nil, List.append_nil]
    exact ⟨n, hs, fun _ => Nat.le_refl n⟩
  | cons move rest ih =>
    have henqueued : all ++ enqueued (move :: rest) = all ++ move.enqueued ++ enqueued rest := by
      rw [enqueued, List.flatMap_cons, List.append_assoc]
      rfl
    have helapsed : t + elapsed (move :: rest) = t + move.elapsed + elapsed rest :=
      (Nat.add_assoc t _ _).symm
    have hsteps : steps (move :: rest) = move.steps + steps rest := rfl
    rw [henqueued] at hd hroom ⊢
    rw [helapsed] at ht ⊢
    have hroom' : (all ++ move.enqueued).length ≤ a.consumer.capacity := by
      rw [List.length_append] at hroom
      exact Nat.le_trans (Nat.le_add_right _ _) hroom
    have ht' : t + move.elapsed < a.consumer.timeToLive :=
      Nat.lt_of_le_of_lt (Nat.le_add_right _ _) ht
    obtain ⟨n₁, hs₁, hn₁⟩ := hs.step hr hh move hd.of_append hroom' ht'
    obtain ⟨n₂, hs₂, hn₂⟩ := ih hs₁ hd hroom ht
    refine ⟨n₂, hs₂, fun hquiet => ?_⟩
    have hle₁ := hn₁ (hquiet move List.mem_cons_self)
    have hle₂ := hn₂ fun move' hm => hquiet move' (List.mem_cons_of_mem move hm)
    omega

end Sound

/-! ## The end -/

/-- What has come of the messages `all` when a shift is over. -/
structure Shift.Finished (a : Assignment) (all : List Message) (y : Shift) : Prop where
  /-- Nothing waits in the queue. -/
  queue : y.world.site.store.waiting a.queue = []
  /-- The consumption waits for messages, with nothing in its stream. -/
  stream : ∃ consumption channel stream, y.call = .inl consumption ∧
    consumption.phase = .reading channel stream ∧ consumption.handled = all.length ∧
    y.world.site.store.streams.get? stream = some []
  /-- The handler was called once for each message, in order. -/
  called : y.calls.map Prod.fst = all
  /-- The broker logged the settlement of each message once, with the verdict on it. -/
  settled : ∃ log, y.world.site.store.settled = a.world.site.store.settled ++ log ∧
    (log.map fun s => Judged.plain (s.message, s.verdict)).Perm (y.calls.map Judged.plain)

/-- No message has been handled twice or before an earlier one. -/
theorem Sound.called_isPrefix {y : Shift} (hs : Sound a all t n y) :
    y.calls.map Prod.fst <+: all := by
  cases hs with
  | entering => exact List.nil_prefix
  | seeking => exact List.nil_prefix
  | opening => exact List.nil_prefix
  | reading hw hf hb hn => exact ⟨_, hb.order⟩
  | handling hw hf hb hn => exact ⟨_, hb.order⟩

/-- When no step is left, everything has been handled and settled. -/
theorem Sound.finished {y : Shift} (hs : Sound a all t 0 y) : y.Finished a all := by
  cases hs with
  | entering hw hn => omega
  | seeking hw hn => omega
  | opening hw he hp hn =>
    have hpos := hp.bounds.1
    omega
  | @reading c w f calls log buffer feed hw hf hb hn =>
    have hnone : buffer = [] := by
      obtain hn | hn := hn
      · exact hn
      · exact List.length_eq_zero_iff.1 (by omega)
    subst hnone
    obtain ⟨hcalled, hsettled⟩ := hb.finished
    constructor
    case queue => exact hw.fed.waiting_eq_nil
    case stream =>
      refine ⟨_, c, feed.stream, rfl, rfl, ?_, hw.fed.2⟩
      rw [← hcalled, List.length_map]
      rfl
    case called => exact hcalled
    case settled =>
      refine ⟨_, hw.settled, ?_⟩
      rw [List.map_map]
      exact hsettled
  | handling hw hf hb hn => omega

namespace Shift

/-- Before the first move, all is to be done. -/
theorem sound_start (hr : a.Ready waiting) : ∃ n, Sound a waiting 0 n a.start :=
  ⟨_, .entering ⟨.refl a.world, hr.unfed, rfl⟩ (Nat.le_refl _)⟩

theorem sound_run (hr : a.Ready waiting) (hh : Calm h) (moves : List Move)
    (hd : Distinct (waiting ++ enqueued moves))
    (hroom : (waiting ++ enqueued moves).length ≤ a.consumer.capacity)
    (ht : elapsed moves < a.consumer.timeToLive) :
    ∃ n, Sound a (waiting ++ enqueued moves) (elapsed moves) n (run h a moves) := by
  obtain ⟨n, hs⟩ := sound_start hr
  rw [← Nat.zero_add (elapsed moves)] at ht ⊢
  obtain ⟨n', hs', -⟩ := hs.foldl_step hr hh moves hd hroom ht
  exact ⟨n', hs'⟩

/-- At every moment of a shift, the handler has been called for the first of the messages, once for
each and in order. -/
theorem called_isPrefix_run (hr : a.Ready waiting) (hh : Calm h) (moves : List Move)
    (hd : Distinct (waiting ++ enqueued moves))
    (hroom : (waiting ++ enqueued moves).length ≤ a.consumer.capacity)
    (ht : elapsed moves < a.consumer.timeToLive) :
    (run h a moves).calls.map Prod.fst <+: waiting ++ enqueued moves := by
  obtain ⟨n, hs⟩ := sound_run hr hh moves hd hroom ht
  exact hs.called_isPrefix

/-- Whatever the moves, once no more messages come and no more settlements are made to fail, a
bounded number of steps is enough to handle every message once and to settle it once. -/
theorem effectivelyOnce_run (hr : a.Ready waiting) (hh : Calm h) (moves rest : List Move)
    (hd : Distinct (waiting ++ enqueued moves))
    (hroom : (waiting ++ enqueued moves).length ≤ a.consumer.capacity)
    (ht : elapsed (moves ++ rest) < a.consumer.timeToLive)
    (hquiet : ∀ move ∈ rest, move.isQuiet = true)
    (hsteps : 2 * (waiting ++ enqueued moves).length +
      (run h a moves).world.site.store.failingSettlements + 5 ≤ steps rest) :
    (run h a (moves ++ rest)).Finished a (waiting ++ enqueued moves) := by
  -- the quiet moves bring no messages
  have hnone : enqueued rest = [] := by
    rw [enqueued, List.flatMap_eq_nil_iff]
    intro move hm
    have hq := hquiet move hm
    cases move with
    | work opens => rfl
    | pass clock wall => rfl
    | fail count => cases hq
    | enqueue m => cases hq
  rw [elapsed_append] at ht
  have ht' : elapsed moves < a.consumer.timeToLive := Nat.lt_of_le_of_lt (Nat.le_add_right _ _) ht
  obtain ⟨n, hs⟩ := sound_run hr hh moves hd hroom ht'
  have hall : waiting ++ enqueued moves ++ enqueued rest = waiting ++ enqueued moves := by
    rw [hnone, List.append_nil]
  rw [← hall] at hd hroom
  obtain ⟨n', hs', hn'⟩ := hs.bounded.foldl_step hr hh rest hd hroom ht
  -- the steps of the quiet moves use up all that were left
  have hzero : n' = 0 := by
    have hle := hn' hquiet
    omega
  rw [hall, hzero] at hs'
  rw [run, List.foldl_append]
  exact hs'.finished

/-- Two messages whose first settlements fail. -/
theorem effectivelyOnce_two_messages :
    let message (name : String) : Message :=
      { body := [], headers := .ofList [(messageIdHeader, name)] }
    let b : Hub :=
      { queues := .ofList [("q", { durable := true, exclusive := false })], channels := 1 }
    let w : HubWorld := { site := { store := b }, supervisor := .enroll {} ⟨0⟩ (some 1) }
    let client : BrokerClient := ⟨⟨⟨0⟩, 1000, 1000, 10, "root"⟩, 1000⟩
    let a : Assignment := ⟨w, { client }, "root", "q"⟩
    let h : Handler HubWorld :=
      { handle := fun w n _ => (w, 0, if n = 0 then .reject else .accept) }
    let moves := [.enqueue (message "a"), .enqueue (message "b"), .fail 2]
    (run h a (moves ++ List.replicate 20 (.work false))).Finished a [message "a", message "b"] := by
  intro message b w client a h moves
  have hr : a.Ready [] := by
    refine ⟨rfl, ⟨1, rfl, rfl⟩, rfl, rfl, rfl, ?_⟩
    exact ⟨{ durable := true, exclusive := false }, rfl, rfl, nofun⟩
  have hh : Calm h := by
    refine ⟨fun _ _ _ => rfl, fun _ _ _ => rfl, fun _ _ _ => rfl, fun _ _ _ => rfl, ?_⟩
    intro w n m
    change (if n = 0 then Verdict.reject else Verdict.accept) ≠ .requeue
    split <;> decide
  refine effectivelyOnce_run hr hh moves (List.replicate 20 (.work false)) ?_ ?_ ?_ ?_ ?_
  · constructor
    · decide +kernel
    · decide +kernel
  · decide +kernel
  · decide +kernel
  · decide +kernel
  · decide +kernel

end Shift

end Reconnect.Rehearsal
