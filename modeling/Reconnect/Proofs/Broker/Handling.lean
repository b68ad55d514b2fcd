import Reconnect.Proofs.Broker.Stopping

/-!
# When the handler is called

A consumption settles every delivery that it takes once, in the order in which it takes them. It
calls the handler for a delivery if and only if that carries no name or its name has no record that
is alive: one of a settlement that has failed after the handler was called, has not been made up for
since, has not given way, and is not too old (`handling_run`). Times on the wall clock must not go
back for that. A delivery that bypasses the handler is settled with the recorded verdict, and its
record goes if that succeeds and stays as it was if it fails.

Once the handler has been called, nothing but its settlement can come of a delivery; a cancellation
is not looked at before.
-/

namespace Reconnect.Broker

/-! ## Records that are alive -/

namespace Failures

/-- Whether the times of a history do not go back. -/
def Chronological (log : List Note) : Prop :=
  (log.filterMap Note.time?).Pairwise (· ≤ ·)

/-- Whether a name has a record that is alive. -/
def Alive (log : List Note) (now ttl : Millis) (name : String) (t : Millis) (v : Verdict) : Prop :=
  ∃ before between, LastFailed log name t v before between ∧ now - t < ttl

variable {log : List Note} {f : Failures} {now : Millis} {name : String} {v : Verdict}

theorem Chronological.le {before between : List Note} {n m : Note} {t t' : Millis}
    (h : Chronological (before ++ n :: between)) (hn : n.time? = some t) (hm : m ∈ between)
    (ht : m.time? = some t') : t ≤ t' := by
  rw [Chronological, List.filterMap_append, List.filterMap_cons_some hn] at h
  have htail := (List.pairwise_append.1 h).2.1
  exact List.rel_of_pairwise_cons htail (List.mem_filterMap.2 ⟨m, hm, ht⟩)

/-- A purge stops in front of a record that is not too old, or at the end. -/
theorem purgeFrom_front (now ttl : Millis) (records : Table String FailureRecord)
    (slots : List (Nat × String)) :
    (purgeFrom now ttl records slots).2 = [] ∨ ∃ slot name rest r,
      (purgeFrom now ttl records slots).2 = (slot, name) :: rest ∧
        (purgeFrom now ttl records slots).1.get? name = some r ∧ r.slot = slot ∧
          now - r.recordedAt < ttl := by
  induction slots generalizing records with
  | nil => exact .inl rfl
  | cons e rest ih =>
    obtain ⟨slot, name⟩ := e
    rw [purgeFrom]
    cases hr : records.get? name with
    | none => exact ih records
    | some r =>
      dsimp only
      split
      case isTrue hslot =>
        split
        case isTrue hyoung => exact .inr ⟨slot, name, rest, r, rfl, hr, hslot, hyoung⟩
        case isFalse => exact ih (records.erase name)
      case isFalse => exact ih records

/-- No record that is too old survives a purge: those behind the front have failed later. -/
theorem Recalls.young (h : f.Recalls log) (hc : Chronological (log ++ [.looked now]))
    {r : FailureRecord} (hr : (f.purge now).records.get? name = some r) :
    now - r.recordedAt < f.timeToLive := by
  have hp := h.purge now
  have hstands := hp.stands name r hr
  rcases purgeFrom_front now f.timeToLive f.records f.slots with hnil |
    ⟨slot, first, rest, r₀, hslots, hr₀, hslot, hyoung⟩
  · have hslots : (f.purge now).slots = [] := hnil
    rw [hslots] at hstands
    cases hstands
  · have hslots : (f.purge now).slots = (slot, first) :: rest := hslots
    have hordered := hp.ordered
    rw [hslots] at hstands hordered
    rcases List.mem_cons.1 hstands with heq | hmem
    · obtain ⟨-, rfl⟩ := Prod.mk.inj heq
      obtain rfl := Option.some.inj (hr₀.symm.trans hr)
      exact hyoung
    · obtain ⟨before₀, between₀, hlast₀, hcount₀⟩ := hp.noted first r₀ hr₀
      obtain ⟨before, between, hlast, hcount⟩ := hp.noted name r hr
      have hlt : before₀.countP Note.isFailed < before.countP Note.isFailed := by
        rw [← hcount₀, ← hcount, hslot]
        exact List.rel_of_pairwise_cons hordered hmem
      obtain ⟨front, hfront⟩ := hlast₀.of_countP_lt hlast hlt
      have hle : r₀.recordedAt ≤ r.recordedAt := by
        rw [hlast₀.split] at hc
        refine hc.le rfl (m := .failed r.recordedAt name r.verdict) ?_ rfl
        rw [hfront.split]
        exact List.mem_append_right _ List.mem_cons_self
      exact Nat.lt_of_le_of_lt (Nat.sub_le_sub_left hle now) hyoung

/-- What the records answer for a name is the verdict of its record that is alive. -/
theorem Recalls.get_eq_some_iff (h : f.Recalls log)
    (hc : Chronological (log ++ [.looked now])) :
    (f.get now name).2 = some v ↔ ∃ t, Alive log now f.timeToLive name t v := by
  constructor
  · intro hv
    obtain ⟨r, hr, rfl⟩ := Option.map_eq_some_iff.1 hv
    obtain ⟨before, between, hlast, -⟩ := (h.purge now).noted name r hr
    rcases hlast.of_concat with ⟨hn, -⟩ | ⟨-, rest, -, hlast⟩
    · cases hn
    · exact ⟨r.recordedAt, before, rest, hlast, h.young hc hr⟩
  · rintro ⟨t, before, between, hlast, hnow⟩
    refine h.get hlast (fun n hn t' ht => ?_) hnow
    have hle : t' ≤ now := by
      rw [Chronological, List.filterMap_append] at hc
      refine (List.pairwise_append.1 hc).2.2 t' ?_ now (List.mem_singleton_self now)
      rw [hlast.split]
      exact List.mem_filterMap.2 ⟨n, List.mem_append_right _ (List.mem_cons_of_mem _ hn), ht⟩
    exact Nat.lt_of_le_of_lt (Nat.sub_le_sub_right hle t) hnow

/-- A record that is alive stays as it is when the records are looked at. -/
theorem Recalls.get?_of_alive (h : f.Recalls log) (hc : Chronological (log ++ [.looked now]))
    {t : Millis} (ha : Alive log now f.timeToLive name t v) :
    ∃ r, (f.get now name).1.records.get? name = some r ∧ r.verdict = v ∧ r.recordedAt = t := by
  obtain ⟨before, between, hlast, hnow⟩ := ha
  have hv := (h.get_eq_some_iff hc).2 ⟨t, before, between, hlast, hnow⟩
  obtain ⟨r, hr, hverdict⟩ := Option.map_eq_some_iff.1 hv
  obtain ⟨before', between', hlast', -⟩ := (h.purge now).noted name r hr
  obtain ⟨-, ht, -⟩ := (hlast.concat (n := .looked now) rfl).unique hlast'
  exact ⟨r, hr, hverdict, ht.symm⟩

end Failures

variable {S C : Type} [Site S C] [Channels S C]

/-! ## What becomes of deliveries -/

/-- Something that a consumption does with a delivery. -/
inductive Deed where
  | took (d : Delivery)
  /-- It calls the handler, which gives a verdict. -/
  | called (d : Delivery) (v : Verdict)
  /-- It settles the delivery with a verdict, which succeeds or not. -/
  | settled (d : Delivery) (v : Verdict) (ok : Bool)
  deriving DecidableEq

namespace Deed

def took? : Deed → Option Delivery
  | .took d => some d
  | _ => none

def called? : Deed → Option Delivery
  | .called d _ => some d
  | _ => none

def settled? : Deed → Option Delivery
  | .settled d _ _ => some d
  | _ => none

end Deed

namespace Consumption

/-- The verdict that is on record for a delivery. -/
def kept? (w : World (Station S) C) (c : Consumption C) (d : Delivery) : Option Verdict :=
  d.received.id?.bind fun id => (c.failures.get (Channels.wall w.site.store) id).2

/-- What is done with a delivery that is received. -/
def receiptDeeds (h : Handler (World (Station S) C)) (w : World (Station S) C)
    (c : Consumption C) (d : Delivery) : List Deed :=
  .took d :: match c.kept? w d with
    | some v => [.settled d v (settle w d v).2.isOk]
    | none => [.called d (h.handle w c.handled d.received).2.2]

/-- What is done in the next step. -/
def deeds (h : Handler (World (Station S) C)) (w : World (Station S) C) (c : Consumption C) :
    List Deed :=
  match c.phase with
  | .reading _ stream =>
    if w.isCanceled c.context then []
    else
      let r := Channels.take w.site.store stream
      match r.2 with
      | .delivery d => c.receiptDeeds h (withStore w r.1) d
      | _ => []
  | .handling _ _ d v due => if w.now < due then [] else [.settled d v (settle w d v).2.isOk]
  | _ => []

/-- The delivery for which the handler has been called and which has not been settled, with the
verdict of the handler. -/
def owes? (c : Consumption C) : Option (Delivery × Verdict) :=
  match c.phase with
  | .handling _ _ d v _ => some (d, v)
  | _ => none

end Consumption

namespace Vigil

/-- What is done with deliveries in a move. -/
def deeds (h : Handler (World (Station S) C)) (y : Vigil S C) : Move S C → List Deed
  | .work _ => (y.call.getLeft?.map (Consumption.deeds h y.world)).getD []
  | .drift _ => []

/-- What is done with deliveries along a list of moves. -/
def doings (h : Handler (World (Station S) C)) : Vigil S C → List (Move S C) → List Deed
  | _, [] => []
  | y, m :: rest => y.deeds h m ++ doings h (y.step h m) rest

end Vigil

/-- One delivery after the other is taken and settled, with the verdict that is on record or after a
call of the handler. There may be one at the end that has not been settled after the call. -/
inductive Orderly : Option (Delivery × Verdict) → List Deed → Prop
  | nil : Orderly none []
  | bypassed {deeds : List Deed} (h : Orderly none deeds) (d : Delivery) (v : Verdict)
      (ok : Bool) : Orderly none (deeds ++ [.took d, .settled d v ok])
  | called {deeds : List Deed} (h : Orderly none deeds) (d : Delivery) (v : Verdict) :
      Orderly (some (d, v)) (deeds ++ [.took d, .called d v])
  | settled {deeds : List Deed} {d : Delivery} {v : Verdict} (h : Orderly (some (d, v)) deeds)
      (ok : Bool) : Orderly none (deeds ++ [.settled d v ok])

namespace Orderly

variable {owed : Option (Delivery × Verdict)} {deeds : List Deed}

/-- Every delivery is settled once, in the order in which they are taken. -/
theorem settled_eq (h : Orderly owed deeds) :
    deeds.filterMap Deed.settled? ++ (owed.map Prod.fst).toList = deeds.filterMap Deed.took? := by
  induction h with
  | nil => rfl
  | bypassed h d v ok ih => simpa [List.filterMap_cons, Deed.settled?, Deed.took?] using ih
  | called h d v ih => simpa [List.filterMap_cons, Deed.settled?, Deed.took?] using ih
  | settled h ok ih => simpa [List.filterMap_cons, Deed.settled?, Deed.took?] using ih

/-- The handler is called for some of them, in that order. -/
theorem called_sublist (h : Orderly owed deeds) :
    (deeds.filterMap Deed.called?).Sublist (deeds.filterMap Deed.took?) := by
  induction h with
  | nil => exact .slnil
  | bypassed h d v ok ih =>
    simpa [List.filterMap_cons, Deed.called?, Deed.took?] using
      ih.trans (List.sublist_append_left _ _)
  | called h d v ih =>
    simpa [List.filterMap_cons, Deed.called?, Deed.took?] using ih.append (.refl [d])
  | settled h ok ih => simpa [List.filterMap_cons, Deed.called?, Deed.took?] using ih

end Orderly

variable {h : Handler (World (Station S) C)} {consumer : Consumer} {log : List Failures.Note}
  {w w' : World (Station S) C} {opens : Bool} {c c' : Consumption C}
  {s : Step (Consumption C) Consumption.Result}

namespace Consumption

omit [Site S C] [Channels S C] in
theorem owes?_finish {w₁ : World (Station S) C} {result : Result} :
    (finish w₁ c result).2.state?.bind owes? = none := by
  unfold finish
  split <;> rfl

omit [Site S C] [Channels S C] in
theorem owes?_retry {w₁ : World (Station S) C} {again : Bool} {time : Millis} :
    (retry w₁ c again time).2.state?.bind owes? = none := by
  unfold retry
  by_cases ht : time = 0 <;> simp [Step.state?, owes?, ht]

/-- Only a received delivery is ever owed a settlement. -/
theorem Goes.owes? (hg : Goes h w opens c w' s)
    (hreading : ∀ channel stream, c.phase ≠ .reading channel stream)
    (hhandling : ∀ channel stream d v due, c.phase ≠ .handling channel stream d v due) :
    s.state?.bind Consumption.owes? = none := by
  cases hg with
  | canceled => exact owes?_finish
  | restores _ _ _ _ hs => rw [hs]; rfl
  | restoreLate => exact owes?_retry
  | restoreFailed => exact owes?_finish
  | opens _ _ _ _ hs => rw [hs]; rfl
  | openLate => exact owes?_retry
  | openFailed => exact owes?_finish
  | recovers _ _ _ _ hs => rw [hs]; rfl
  | recoverFailed => exact owes?_finish
  | readCanceled hp => exact absurd hp (hreading _ _)
  | pending hp => exact absurd hp (hreading _ _)
  | delivered hp => exact absurd hp (hreading _ _)
  | lost hp => exact absurd hp (hreading _ _)
  | handles hp => exact absurd hp (hhandling _ _ _ _ _)
  | handled hp => exact absurd hp (hhandling _ _ _ _ _)
  | leaves _ hs => rw [hs]; rfl
  | yields hp =>
    show Consumption.owes? c = none
    rw [Consumption.owes?, hp]
  | _ => rfl

section Receive

variable {channel : C} {stream : Nat} {d : Delivery} {v : Verdict}

omit [Site S C] in
/-- A delivery whose verdict is on record is settled with it. -/
theorem receive_of_kept {id : String} (hid : d.received.id? = some id)
    (hk : (c.failures.get (Channels.wall w.site.store) id).2 = some v) :
    receive h w c channel stream d = ((settle w d v).1, { c with
      failures := if (settle w d v).2.isOk
        then (c.failures.get (Channels.wall w.site.store) id).1.remove id
        else (c.failures.get (Channels.wall w.site.store) id).1 }) := by
  unfold receive
  simp only [hid, hk]
  cases (settle w d v).2 <;> rfl

omit [Site S C] in
/-- For another delivery the handler is called. -/
theorem receive_of_not_kept (h : Handler (World (Station S) C)) (channel : C) (stream : Nat)
    (hk : c.kept? w d = none) :
    ∃ failures, receive h w c channel stream d =
      ((h.handle w c.handled d.received).1, { c with
        failures
        handled := c.handled + 1
        phase := .handling channel stream d (h.handle w c.handled d.received).2.2
          ((h.handle w c.handled d.received).1.now +
            (h.handle w c.handled d.received).2.1) }) := by
  unfold receive
  cases hid : d.received.id? with
  | none => exact ⟨_, rfl⟩
  | some id =>
    rw [kept?, hid] at hk
    simp only [Option.bind_some] at hk
    simp only [hk]
    exact ⟨_, rfl⟩

end Receive

/-- What a step does with the delivery that it takes. -/
theorem step_of_takes? {stream : Nat} {d : Delivery} (ht : c.takes? w = some (stream, d)) :
    ∃ channel store, c.phase = .reading channel stream ∧
      Channels.take w.site.store stream = (store, .delivery d) ∧
      (∀ opens, c.step h w opens = ((receive h (withStore w store) c channel stream d).1,
        .moves (receive h (withStore w store) c channel stream d).2)) ∧
      c.deeds h w = c.receiptDeeds h (withStore w store) d := by
  obtain ⟨⟨channel, hp⟩, hc⟩ := reading_of_takes? ht
  rcases hr : Channels.take w.site.store stream with ⟨store, next⟩
  simp only [takes?, hp, hc, hr] at ht
  cases next with
  | delivery d' =>
    cases ht
    refine ⟨channel, store, hp, rfl, fun opens => ?_, ?_⟩
    · simp [step, hp, hc, hr]
    · simp [deeds, hp, hc, hr]
  | _ => cases ht

/-- A step that takes nothing settles the delivery that it owes, or does nothing with deliveries. -/
theorem step_of_not_takes (ht : c.takes? w = none) (opens : Bool) :
    (c.deeds h w = [] ∧ (c.step h w opens).2.state?.bind owes? = c.owes?) ∨
      ∃ d v, c.owes? = some (d, v) ∧ c.deeds h w = [.settled d v (settle w d v).2.isOk] ∧
        (c.step h w opens).2.state?.bind owes? = none := by
  cases hp : c.phase with
  | reading channel stream =>
    have hnone : c.owes? = none := by rw [owes?, hp]
    left
    rw [hnone]
    simp only [takes?, step, deeds, hp] at ht ⊢
    split
    case isTrue => exact ⟨rfl, owes?_finish⟩
    case isFalse hc =>
      rw [if_neg hc] at ht
      cases hr : (Channels.take w.site.store stream).2 with
      | delivery d => simp [hr] at ht
      | pending => exact ⟨rfl, hnone⟩
      | failure => exact ⟨rfl, rfl⟩
      | ended => exact ⟨rfl, rfl⟩
  | handling channel stream d v due =>
    have hsome : c.owes? = some (d, v) := by rw [owes?, hp]
    simp only [step, deeds, hp]
    split
    · exact .inl ⟨rfl, rfl⟩
    · exact .inr ⟨d, v, hsome, rfl, rfl⟩
  | _ =>
    -- in all other phases no delivery is at hand
    left
    rw [(c.goes_step h w opens).owes? (by simp [hp]) (by simp [hp]), owes?, hp]
    exact ⟨by simp only [deeds, hp], rfl⟩

/-- A step keeps deliveries in order. -/
theorem orderly_step {done : List Deed} (ho : Orderly c.owes? done) (w : World (Station S) C)
    (opens : Bool) :
    Orderly ((c.step h w opens).2.state?.bind owes?) (done ++ c.deeds h w) := by
  cases ht : c.takes? w with
  | some t =>
    obtain ⟨stream, d⟩ := t
    obtain ⟨channel, store, hp, -, hstep, hdeeds⟩ := step_of_takes? (h := h) ht
    have hnone : ∀ failures, owes? { c with failures } = none := fun _ => by rw [owes?, hp]
    rw [show c.owes? = none from hnone c.failures] at ho
    rw [hstep, hdeeds, receiptDeeds]
    simp only [Step.state?, Option.bind_some]
    cases hk : c.kept? (withStore w store) d with
    | none =>
      obtain ⟨failures, hr⟩ := receive_of_not_kept h channel stream hk
      rw [hr]
      exact .called ho d _
    | some v =>
      obtain ⟨id, hid, hk⟩ := Option.bind_eq_some_iff.1 hk
      rw [receive_of_kept hid hk, hnone]
      exact .bypassed ho d v _
  | none =>
    rcases step_of_not_takes (h := h) ht opens with ⟨hdeeds, howes⟩ | ⟨d, v, hsome, hdeeds, howes⟩
    · rw [hdeeds, howes, List.append_nil]
      exact ho
    · rw [hsome] at ho
      rw [hdeeds, howes]
      exact .settled ho _

/-- The count of calls goes up with each call. -/
theorem handled_step (w : World (Station S) C) (opens : Bool)
    (hs : (c.step h w opens).2.state? = some c') :
    c'.handled = c.handled + ((c.deeds h w).filterMap Deed.called?).length := by
  cases ht : c.takes? w with
  | none =>
    rw [handled_of_takes? ht hs]
    rcases step_of_not_takes (h := h) ht opens with ⟨hdeeds, -⟩ | ⟨d, v, -, hdeeds, -⟩ <;>
      simp [hdeeds, Deed.called?, List.filterMap_cons]
  | some t =>
    obtain ⟨stream, d⟩ := t
    obtain ⟨channel, store, -, -, hstep, hdeeds⟩ := step_of_takes? (h := h) ht
    rw [hstep] at hs
    cases hs
    rw [hdeeds, receiptDeeds]
    cases hk : c.kept? (withStore w store) d with
    | none =>
      obtain ⟨failures, hr⟩ := receive_of_not_kept h channel stream hk
      rw [hr]
      simp [Deed.called?, List.filterMap_cons]
    | some v =>
      obtain ⟨id, hid, hk⟩ := Option.bind_eq_some_iff.1 hk
      rw [receive_of_kept hid hk]
      simp [Deed.called?, List.filterMap_cons]

/-- What is left of the record of a name after its verdict has been used. -/
def Spent (ok : Bool) (id : String) (t : Millis) (v : Verdict) (f : Failures) : Prop :=
  if ok then f.records.get? id = none
  else ∃ r, f.records.get? id = some r ∧ r.verdict = v ∧ r.recordedAt = t

section Alive

variable {stream : Nat} {store : S} {d : Delivery}

omit [Site S C] in
/-- A delivery has no verdict on record if and only if its name has no record that is alive. -/
theorem kept?_eq_none_iff (hf : Recollects consumer c.failures log)
    (hc : Failures.Chronological (log ++ [.looked (Channels.wall store)])) :
    c.kept? (withStore w store) d = none ↔ ∀ id, d.received.id? = some id →
      ∀ t v, ¬ Failures.Alive log (Channels.wall store) consumer.timeToLive id t v := by
  rw [kept?, Option.bind_eq_none_iff, ← hf.timeToLive]
  refine forall₂_congr fun id _ => ?_
  rw [Option.eq_none_iff_forall_ne_some]
  constructor
  · intro hnone t v halive
    exact hnone v ((hf.toRecalls.get_eq_some_iff hc).2 ⟨t, halive⟩)
  · intro hdead v hv
    obtain ⟨t, halive⟩ := (hf.toRecalls.get_eq_some_iff hc).1 hv
    exact hdead t v halive

omit [Site S C] in
theorem called_mem_receiptDeeds_iff :
    (∃ v, Deed.called d v ∈ c.receiptDeeds h w d) ↔ c.kept? w d = none := by
  unfold receiptDeeds
  cases c.kept? w d <;> simp

/-- The handler is called for a delivery if and only if it has no name with a record that is
alive. -/
theorem called_iff (hf : Recollects consumer c.failures log)
    (ht : c.takes? w = some (stream, d))
    (htake : Channels.take w.site.store stream = (store, .delivery d))
    (hc : Failures.Chronological (log ++ [.looked (Channels.wall store)])) :
    (∃ v, Deed.called d v ∈ c.deeds h w) ↔ ∀ id, d.received.id? = some id →
      ∀ t v, ¬ Failures.Alive log (Channels.wall store) consumer.timeToLive id t v := by
  obtain ⟨channel, store', -, htake', -, hdeeds⟩ := step_of_takes? (h := h) ht
  obtain rfl : store' = store := (Prod.mk.inj (htake'.symm.trans htake)).1
  rw [hdeeds, called_mem_receiptDeeds_iff, kept?_eq_none_iff hf hc]

/-- A delivery whose name has a record that is alive is settled with the verdict of that. -/
theorem step_of_alive (hf : Recollects consumer c.failures log)
    (ht : c.takes? w = some (stream, d))
    (htake : Channels.take w.site.store stream = (store, .delivery d))
    (hc : Failures.Chronological (log ++ [.looked (Channels.wall store)])) {id : String}
    (hid : d.received.id? = some id) {t : Millis} {v : Verdict}
    (halive : Failures.Alive log (Channels.wall store) consumer.timeToLive id t v)
    (opens : Bool) :
    ∃ failures, c.step h w opens =
        ((settle (withStore w store) d v).1, .moves { c with failures }) ∧
      Spent (settle (withStore w store) d v).2.isOk id t v failures := by
  obtain ⟨channel, store', -, htake', hstep, -⟩ := step_of_takes? (h := h) ht
  obtain rfl : store' = store := (Prod.mk.inj (htake'.symm.trans htake)).1
  rw [← hf.timeToLive] at halive
  have hv := (hf.toRecalls.get_eq_some_iff hc).2 ⟨t, halive⟩
  refine ⟨_, (hstep opens).trans (by rw [receive_of_kept hid hv]), ?_⟩
  unfold Spent
  split
  · rw [Failures.remove, Table.get?_erase, if_pos rfl]
  · exact hf.toRecalls.get?_of_alive hc halive

end Alive

/-- When the handler has been called, the next thing that is done is to settle the delivery. -/
theorem step_of_handling {channel : C} {stream : Nat} {d : Delivery} {v : Verdict} {due : Millis}
    (hp : c.phase = .handling channel stream d v due) (w : World (Station S) C) (opens : Bool) :
    c.step h w opens = (w, .waits c) ∧ w.now < due ∨
    ∃ failures, c.step h w opens = ((settle w d v).1,
        .moves { c with failures, phase := .reading channel stream }) ∧
      ((settle w d v).2.isOk = true ∧ failures = c.failures ∨
        (settle w d v).2.isOk = false ∧ ∀ id, d.received.id? = some id →
          ∃ slot, failures.records.get? id =
            some ⟨v, Channels.wall (settle w d v).1.site.store, slot⟩) := by
  simp only [step, hp]
  split
  case isTrue hlt => exact .inl ⟨rfl, hlt⟩
  case isFalse =>
    right
    unfold conclude
    cases hr : (settle w d v).2 with
    | ok =>
      refine ⟨c.failures, ?_, .inl ⟨rfl, rfl⟩⟩
      simp only [hr]
    | error e =>
      cases hid : d.received.id? with
      | none =>
        refine ⟨c.failures, ?_, .inr ⟨rfl, fun id hid => by cases hid⟩⟩
        simp only [hr]
      | some id =>
        refine ⟨c.failures.record (Channels.wall (settle w d v).1.site.store) id v, ?_,
          .inr ⟨rfl, fun id' hid' => ?_⟩⟩
        · simp only [hr]
        · cases hid'
          exact ⟨_, by rw [Failures.record, Table.get?_insert, if_pos rfl]⟩

end Consumption

/-! ## Runs -/

namespace Vigil

/-- What has been done with deliveries, and how often the handler has been called. -/
structure Accounts (y : Vigil S C) (done : List Deed) : Prop where
  orderly : Orderly (y.call.getLeft?.bind Consumption.owes?) done
  handled : ∀ c, y.call = .inl c → c.handled = (done.filterMap Deed.called?).length

theorem Accounts.step {y : Vigil S C} {done : List Deed} (hy : y.Accounts done) (m : Move S C) :
    (y.step h m).Accounts (done ++ y.deeds h m) := by
  obtain ⟨w, call, notes⟩ := y
  cases m with
  | drift f =>
    rw [deeds, List.append_nil]
    exact ⟨hy.orderly, hy.handled⟩
  | work opens =>
    cases call with
    | inr result =>
      rw [show deeds h ⟨w, .inr result, notes⟩ (.work opens) = [] from rfl, List.append_nil]
      exact hy
    | inl c =>
      have hcall : (Vigil.step h ⟨w, .inl c, notes⟩ (.work opens)).call.getLeft? =
          (c.step h w opens).2.state? := getLeft?_goOn _
      refine ⟨?_, fun c' hc' => ?_⟩
      · rw [hcall]
        exact Consumption.orderly_step hy.orderly w opens
      · rw [Consumption.handled_step w opens (state?_of_work hc'), hy.handled c rfl,
          List.filterMap_append, List.length_append]
        rfl

theorem accounts_moves (moves : List (Move S C)) {y : Vigil S C} {done : List Deed}
    (hy : y.Accounts done) :
    (moves.foldl (Vigil.step h) y).Accounts (done ++ doings h y moves) := by
  induction moves generalizing y done with
  | nil =>
    rw [doings, List.append_nil]
    exact hy
  | cons m rest ih =>
    rw [doings, ← List.append_assoc]
    exact ih (hy.step m)

end Vigil

/-- What a consumption does with deliveries when it has got somewhere, given what it has done with
others and the history of failed settlements. -/
structure Handling (h : Handler (World (Station S) C)) (consumer : Consumer) (y : Vigil S C)
    (done : List Deed) (log : List Failures.Note) : Prop where
  orderly : Orderly (y.call.getLeft?.bind Consumption.owes?) done
  /-- All deliveries have been settled once, in the order in which they were taken, but for the one
  that the handler has been called for. -/
  settledOnce : done.filterMap Deed.settled? ++
    ((y.call.getLeft?.bind Consumption.owes?).map Prod.fst).toList = done.filterMap Deed.took?
  calledInOrder : (done.filterMap Deed.called?).Sublist (done.filterMap Deed.took?)
  handled : ∀ c, y.call = .inl c → c.handled = (done.filterMap Deed.called?).length
  /-- The handler is called for a delivery if and only if it has no name with a record that is
  alive. -/
  called : ∀ c stream store d now, y.call = .inl c → c.takes? y.world = some (stream, d) →
    Channels.take y.world.site.store stream = (store, .delivery d) → now = Channels.wall store →
    Failures.Chronological (log ++ [.looked now]) →
    ((∃ v, Deed.called d v ∈ c.deeds h y.world) ↔ ∀ id, d.received.id? = some id →
      ∀ t v, ¬ Failures.Alive log now consumer.timeToLive id t v)
  /-- A delivery that bypasses the handler is settled with the recorded verdict. Its record goes if
  that succeeds, and stays as it was if it fails. -/
  bypassed : ∀ c stream store d now id t v opens, y.call = .inl c →
    c.takes? y.world = some (stream, d) →
    Channels.take y.world.site.store stream = (store, .delivery d) → now = Channels.wall store →
    Failures.Chronological (log ++ [.looked now]) → d.received.id? = some id →
    Failures.Alive log now consumer.timeToLive id t v →
    ∃ failures, c.step h y.world opens =
        ((Consumption.settle (withStore y.world store) d v).1, .moves { c with failures }) ∧
      Consumption.Spent (Consumption.settle (withStore y.world store) d v).2.isOk id t v failures
  /-- A delivery for which the handler has been called waits for nothing but the end of the handler,
  and then it is settled with the verdict of the handler. If that fails, the verdict is put on
  record. -/
  settles : ∀ c channel stream d v due opens, y.call = .inl c →
    c.phase = .handling channel stream d v due →
    c.step h y.world opens = (y.world, .waits c) ∧ y.world.now < due ∨
    ∃ failures, c.step h y.world opens = ((Consumption.settle y.world d v).1,
        .moves { c with failures, phase := .reading channel stream }) ∧
      ((Consumption.settle y.world d v).2.isOk = true ∧ failures = c.failures ∨
        (Consumption.settle y.world d v).2.isOk = false ∧ ∀ id, d.received.id? = some id →
          ∃ slot, failures.records.get? id =
            some ⟨v, Channels.wall (Consumption.settle y.world d v).1.site.store, slot⟩)

/-- Whatever happens in the world beside it, a consumption settles each delivery once and calls the
handler for those only that have no record that is alive. -/
theorem handling_run (h : Handler (World (Station S) C)) (w : World (Station S) C)
    (consumer : Consumer) (context queue : String) (moves : List (Vigil.Move S C)) :
    let y₀ : Vigil S C := { world := w, call := .inl (Vigil.begun w consumer context queue) }
    Handling h consumer (Vigil.run h w consumer context queue moves) (Vigil.doings h y₀ moves)
      (Vigil.history h y₀ moves) := by
  intro y₀
  have hbegun : Remembers consumer y₀.call.getLeft? [] :=
    ⟨_, .empty consumer, fun c hc => by cases hc; exact ⟨rfl, nofun⟩⟩
  obtain ⟨f, hf, hcall⟩ := Vigil.remembers_moves (h := h) moves hbegun
  rw [List.nil_append] at hf
  have hstart : Vigil.Accounts y₀ [] := ⟨.nil, fun c hc => by cases hc; rfl⟩
  have haccounts : (Vigil.run h w consumer context queue moves).Accounts
      (Vigil.doings h y₀ moves) := Vigil.accounts_moves (h := h) moves hstart
  refine ⟨haccounts.orderly, haccounts.orderly.settled_eq, haccounts.orderly.called_sublist,
    haccounts.handled, ?_, ?_, ?_⟩
  · rintro c stream store d now hc ht htake rfl hchronological
    obtain ⟨rfl, -⟩ := hcall c (Sum.getLeft?_eq_some_iff.2 hc)
    exact Consumption.called_iff hf ht htake hchronological
  · rintro c stream store d now id t v opens hc ht htake rfl hchronological hid halive
    obtain ⟨rfl, -⟩ := hcall c (Sum.getLeft?_eq_some_iff.2 hc)
    exact Consumption.step_of_alive hf ht htake hchronological hid halive opens
  · intro c channel stream d v due opens _ hp
    exact Consumption.step_of_handling hp _ opens

end Reconnect.Broker
