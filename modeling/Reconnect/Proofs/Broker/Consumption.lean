import Reconnect.Broker.Consumption
import Reconnect.Proofs.Broker.Arrangement
import Reconnect.Proofs.Schedule.Errand

/-!
# How a consumption goes on

`Consumption.Goes` lists, rule by rule, what one step of a consumption does; `goes_step` shows that
the consumptions of every site follow these rules. A rule for a call that the consumption makes
names the step of that call, so that it can be taken apart by the rules of the call.
-/

namespace Reconnect.Broker.Consumption

variable {S C : Type} [Site S C] [Channels S C]

/-- One step of a consumption: the world and the step that come of it. -/
inductive Goes (h : Handler (World (Station S) C)) (w : World (Station S) C) (opens : Bool)
    (c : Consumption C) : World (Station S) C → Step (Consumption C) Result → Prop
  | enter (hp : c.phase = .entering) :
      Goes h w opens c w (.moves { c with
        failures := .empty c.consumer.capacity c.consumer.timeToLive
        seen := if w.attached then some w.supervisor.generation else none
        phase := .seeking false })
  | canceled (hc : w.isCanceled c.context = true)
      (hp : (∃ again, c.phase = .seeking again) ∨ (∃ again a, c.phase = .restoring again a) ∨
        (∃ again e, c.phase = .opening again e) ∨ ∃ a, c.phase = .recovering a) :
      Goes h w opens c (finish w c (.ok ())).1 (finish w c (.ok ())).2
  | outdated {again : Bool} {t : Topology} (hp : c.phase = .seeking again)
      (ht : outdated? w c = some t) :
      Goes h w opens c w (.moves { c with phase := .restoring again (.restore w t) })
  | current {again : Bool} (hp : c.phase = .seeking again) (ht : outdated? w c = none) :
      Goes h w opens c (openStream w again c).1 (openStream w again c).2
  | yielded {again : Bool} {till : Event} (hp : c.phase = .yielding again till) :
      Goes h w opens c w (.moves { c with phase := .seeking again })
  | yields {again : Bool} {till : Event} (hp : c.phase = .yielding again till) :
      Goes h w opens c w (.waits c)
  | restores {again : Bool} {a a' : Arrangement C} {w' : World (Station S) C}
      {s : Step (Arrangement C) Result} {s' : Step (Consumption C) Result}
      (hn : (opens && w.isCanceled c.context) = false)
      (hp : c.phase = .restoring again a) (ha : a.Goes w opens w' s) (hs : s.state? = some a')
      (hs' : s'.state? = some { c with phase := .restoring again a' }) : Goes h w opens c w' s'
  | restored {again : Bool} {a : Arrangement C} {w' : World (Station S) C}
      (hn : (opens && w.isCanceled c.context) = false)
      (hp : c.phase = .restoring again a) (ha : a.Goes w opens w' (.ends (.ok ()))) :
      Goes h w opens c
        (openStream w' again { c with seen := some w'.supervisor.generation }).1
        (openStream w' again { c with seen := some w'.supervisor.generation }).2
  | restoreLate {again : Bool} {a : Arrangement C} {w' : World (Station S) C}
      {e : MessagingError Fault} (hn : (opens && w.isCanceled c.context) = false)
      (hp : c.phase = .restoring again a)
      (ha : a.Goes w opens w' (.ends (.error e))) (he : e.isTimeout = true) (time : Millis) :
      Goes h w opens c (retry w' c again time).1 (retry w' c again time).2
  | restoreFailed {again : Bool} {a : Arrangement C} {w' : World (Station S) C}
      {e : MessagingError Fault} (hn : (opens && w.isCanceled c.context) = false)
      (hp : c.phase = .restoring again a)
      (ha : a.Goes w opens w' (.ends (.error e))) (he : e.isTimeout = false) :
      Goes h w opens c (fail w' c e).1 (fail w' c e).2
  | opens {again : Bool} {e e' : Execution C} {w' : World (Station S) C}
      {s : Step (Execution C) (Execution.Outcome (Reply C))}
      {s' : Step (Consumption C) Result} (hn : (opens && w.isCanceled c.context) = false)
      (hp : c.phase = .opening again e)
      (he : e.Goes (asking (.consume c.queue)) w opens w' s) (hs : s.state? = some e')
      (hs' : s'.state? = some { c with phase := .opening again e' }) : Goes h w opens c w' s'
  | opened {again : Bool} {e : Execution C} {w' : World (Station S) C} {n stream : Nat}
      {channel : C} (hn : (opens && w.isCanceled c.context) = false)
      (hp : c.phase = .opening again e)
      (he : e.Goes (asking (.consume c.queue)) w opens w'
        (.ends ⟨n, .ok (.opened channel stream)⟩)) :
      Goes h w opens c w' (.moves { c with phase := .reading channel stream })
  | unopened {again : Bool} {e : Execution C} {w' : World (Station S) C}
      {s : Step (Execution C) (Execution.Outcome (Reply C))}
      (hn : (opens && w.isCanceled c.context) = false) (hp : c.phase = .opening again e)
      (he : e.Goes (asking (.consume c.queue)) w opens w' s) :
      Goes h w opens c w' (.moves { c with phase := .seeking again })
  | openLate {again : Bool} {e : Execution C} {w' : World (Station S) C} {n : Nat}
      (hn : (opens && w.isCanceled c.context) = false)
      (hp : c.phase = .opening again e)
      (he : e.Goes (asking (.consume c.queue)) w opens w' (.ends ⟨n, .error .operationTimeout⟩))
      (time : Millis) : Goes h w opens c (retry w' c again time).1 (retry w' c again time).2
  | refusedOnce {e : Execution C} {w' : World (Station S) C} {n : Nat} {f : Fault}
      {t : Topology} (hn : (opens && w.isCanceled c.context) = false)
      (hp : c.phase = .opening false e) (ht : c.consumer.topology = some t)
      (he : e.Goes (asking (.consume c.queue)) w opens w' (.ends ⟨n, .error (.operation f)⟩)) :
      Goes h w opens c w' (.moves { c with phase := .recovering (.restore w' t) })
  | openFailed {again : Bool} {e : Execution C} {w' : World (Station S) C} {n : Nat}
      {err : CallError Fault} (hn : (opens && w.isCanceled c.context) = false)
      (hp : c.phase = .opening again e)
      (he : e.Goes (asking (.consume c.queue)) w opens w' (.ends ⟨n, .error err⟩))
      (ht : err ≠ .operationTimeout) :
      Goes h w opens c (fail w' c (.client err)).1 (fail w' c (.client err)).2
  | recovers {a a' : Arrangement C} {w' : World (Station S) C}
      {s : Step (Arrangement C) Result} {s' : Step (Consumption C) Result}
      (hn : (opens && w.isCanceled c.context) = false)
      (hp : c.phase = .recovering a) (ha : a.Goes w opens w' s) (hs : s.state? = some a')
      (hs' : s'.state? = some { c with phase := .recovering a' }) : Goes h w opens c w' s'
  | recovered {a : Arrangement C} {w' : World (Station S) C}
      (hn : (opens && w.isCanceled c.context) = false)
      (hp : c.phase = .recovering a)
      (ha : a.Goes w opens w' (.ends (.ok ()))) :
      Goes h w opens c w' (.moves { c with phase := .seeking true })
  | recoverFailed {a : Arrangement C} {w' : World (Station S) C} {e : MessagingError Fault}
      (hn : (opens && w.isCanceled c.context) = false)
      (hp : c.phase = .recovering a) (ha : a.Goes w opens w' (.ends (.error e))) :
      Goes h w opens c (fail w' c e).1 (fail w' c e).2
  | readCanceled {channel : C} {stream : Nat} {w' : World (Station S) C}
      (hp : c.phase = .reading channel stream) (hc : w.isCanceled c.context = true)
      (hw : ∃ store, w' = withStore w store) :
      Goes h w opens c (finish w' c (.ok ())).1 (finish w' c (.ok ())).2
  | pending {channel : C} {stream : Nat} {w' : World (Station S) C}
      (hp : c.phase = .reading channel stream) (hw : ∃ store, w' = withStore w store) :
      Goes h w opens c w' (.waits c)
  | delivered {channel : C} {stream : Nat} {d : Delivery} {w' : World (Station S) C}
      (hp : c.phase = .reading channel stream) (hw : ∃ store, w' = withStore w store) :
      Goes h w opens c (receive h w' c channel stream d).1
        (.moves (receive h w' c channel stream d).2)
  | lost {channel : C} {stream : Nat} {w' : World (Station S) C}
      (hp : c.phase = .reading channel stream) (hw : ∃ store, w' = withStore w store)
      (store : S) :
      Goes h w opens c (withStore w'.report store) (.moves { c with phase := .seeking false })
  | handles {channel : C} {stream : Nat} {d : Delivery} {v : Verdict} {due : Millis}
      (hp : c.phase = .handling channel stream d v due) : Goes h w opens c w (.waits c)
  | handled {channel : C} {stream : Nat} {d : Delivery} {v : Verdict} {due : Millis}
      (hp : c.phase = .handling channel stream d v due) :
      Goes h w opens c (conclude w c d v).1
        (.moves { (conclude w c d v).2 with phase := .reading channel stream })
  | leaves {e e' : Errand C} {result : Result} {s' : Step (Consumption C) Result}
      (hp : c.phase = .leaving e result)
      (hs' : s'.state? = some { c with phase := .leaving e' result }) :
      Goes h w opens c (e.step w).1 s'
  | left {e : Errand C} {result : Result} (hp : c.phase = .leaving e result) :
      Goes h w opens c (e.step w).1 (.ends result)

variable (h : Handler (World (Station S) C)) (w : World (Station S) C) (opens : Bool)
  (c : Consumption C)

theorem goes_seeking {again : Bool} (hp : c.phase = .seeking again) :
    Goes h w opens c (c.step h w opens).1 (c.step h w opens).2 := by
  simp only [step, hp]
  split
  case isTrue hc => exact .canceled hc (.inl ⟨again, hp⟩)
  case isFalse =>
    split
    case h_1 t ht => exact .outdated hp ht
    case h_2 ht => exact .current hp ht

theorem goes_restoring {again : Bool} {a : Arrangement C} (hp : c.phase = .restoring again a) :
    Goes h w opens c (c.step h w opens).1 (c.step h w opens).2 := by
  have ha := a.goes_step w opens
  simp only [step, hp]
  split
  case isTrue hc =>
    exact .canceled (Bool.and_eq_true _ _ ▸ hc).2 (.inr (.inl ⟨again, a, hp⟩))
  case isFalse hn =>
    rw [Bool.not_eq_true] at hn
    generalize a.step w opens = r at ha ⊢
    rcases r with ⟨w', a' | a' | (e | _)⟩
    · exact .restores hn hp ha rfl rfl
    · exact .restores hn hp ha rfl rfl
    · cases he : e.isTimeout with
      | true =>
        simp only [he, if_true]
        exact .restoreLate hn hp ha he _
      | false =>
        simp only [he, Bool.false_eq_true, if_false]
        exact .restoreFailed hn hp ha he
    · exact .restored hn hp ha

theorem goes_opening {again : Bool} {e : Execution C} (hp : c.phase = .opening again e) :
    Goes h w opens c (c.step h w opens).1 (c.step h w opens).2 := by
  have he := e.goes_step (asking (.consume c.queue)) w opens
  simp only [step, hp]
  split
  case isTrue hc =>
    exact .canceled (Bool.and_eq_true _ _ ▸ hc).2 (.inr (.inr (.inl ⟨again, e, hp⟩)))
  case isFalse hn =>
    rw [Bool.not_eq_true] at hn
    generalize e.step (asking (.consume c.queue)) w opens = r at he ⊢
    rcases r with ⟨w', e' | e' | ⟨n, err | reply⟩⟩
    · exact .opens hn hp he rfl rfl
    · exact .opens hn hp he rfl rfl
    · cases err with
      | operationTimeout => exact .openLate hn hp he _
      | contextCanceled => exact .openFailed hn hp he nofun
      | clientDetached => exact .openFailed hn hp he nofun
      | operation f =>
        cases again with
        | true => exact .openFailed hn hp he nofun
        | false =>
          cases ht : c.consumer.topology with
          | none => exact .openFailed hn hp he nofun
          | some t => exact .refusedOnce hn hp ht he
    · cases reply with
      | opened channel stream => exact .opened hn hp he
      | done => exact .unopened hn hp he
      | refused => exact .unopened hn hp he
      | confirmed => exact .unopened hn hp he

theorem goes_recovering {a : Arrangement C} (hp : c.phase = .recovering a) :
    Goes h w opens c (c.step h w opens).1 (c.step h w opens).2 := by
  have ha := a.goes_step w opens
  simp only [step, hp]
  split
  case isTrue hc =>
    exact .canceled (Bool.and_eq_true _ _ ▸ hc).2 (.inr (.inr (.inr ⟨a, hp⟩)))
  case isFalse hn =>
    rw [Bool.not_eq_true] at hn
    generalize a.step w opens = r at ha ⊢
    rcases r with ⟨w', a' | a' | (e | _)⟩
    · exact .recovers hn hp ha rfl rfl
    · exact .recovers hn hp ha rfl rfl
    · exact .recoverFailed hn hp ha
    · exact .recovered hn hp ha

theorem goes_reading {channel : C} {stream : Nat} (hp : c.phase = .reading channel stream) :
    Goes h w opens c (c.step h w opens).1 (c.step h w opens).2 := by
  simp only [step, hp]
  split
  case isTrue hc => exact .readCanceled hp hc ⟨_, rfl⟩
  case isFalse =>
    split
    · exact .pending hp ⟨_, rfl⟩
    · exact .delivered hp ⟨_, rfl⟩
    · exact .lost hp ⟨_, rfl⟩ _
    · exact .lost hp ⟨_, rfl⟩ _

/-- A step of a consumption follows the rules. -/
theorem goes_step : Goes h w opens c (c.step h w opens).1 (c.step h w opens).2 := by
  cases hp : c.phase with
  | entering =>
    simp only [step, hp]
    exact .enter hp
  | seeking => exact goes_seeking h w opens c hp
  | yielding again till =>
    simp only [step, hp]
    split
    · exact .yielded hp
    · exact .yields hp
  | restoring => exact goes_restoring h w opens c hp
  | opening => exact goes_opening h w opens c hp
  | recovering => exact goes_recovering h w opens c hp
  | reading => exact goes_reading h w opens c hp
  | handling channel stream d v due =>
    simp only [step, hp]
    split
    · exact .handles hp
    · exact .handled hp
  | leaving e result =>
    simp only [step, hp]
    rcases (e.step w).2 with e' | e' | _
    · exact .leaves hp rfl
    · exact .leaves hp rfl
    · exact .left hp

end Reconnect.Broker.Consumption
