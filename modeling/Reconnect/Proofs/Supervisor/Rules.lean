import Reconnect.Supervisor.Call

/-!
# How the calls of a supervisor go on

`Goes` lists, rule by rule, what one stage of a call does with a signal that it allows, guards
included. `goes_resume` shows that `resume` follows these rules; what a stage can do to a supervisor
is read off the rules from there on.
-/

namespace Reconnect.Supervisor

variable {C : Type}

/-- Whether a stage can go on with a signal. `canceled` tells whether the context of the supervisor
has been canceled. A pause that is over may still come before a cancellation. -/
def Stage.allows (canceled : Bool) (stage : Stage C) (signal : Signal C) : Bool :=
  match stage.need, signal with
  | .nothing, .go => true
  | .connection, .opened _ | .connection, .failed => true
  | .answer _, .go | .answer _, .failed => true
  | .leave, .go => !canceled
  | .leave, .stopped => canceled
  | .rest, .go => true
  | .rest, .stopped => canceled
  | _, _ => false

/-- One turn of a call: the stage before it, the signal it goes on with, and what comes of it. -/
inductive Goes (canceled : Bool) (s : Supervisor C) : Stage C → Signal C → Turn C → Prop
  | registerOpened (id : Identifier) (c : C) :
      Goes canceled s (.registerOpen id) (.opened c)
        { supervisor := s, next := some (.registerEnter id (some c)) }
  | registerFailed (id : Identifier) :
      Goes canceled s (.registerOpen id) .failed
        { supervisor := s, next := some (.registerEnter id none) }
  | enterLate (id : Identifier) (c : C) (hr : s.recovering = true) :
      Goes canceled s (.registerEnter id (some c)) .go
        { supervisor := s.enroll id none, next := some (.registerReport (some c)) }
  | enterInTime (id : Identifier) (c : C) (hr : s.recovering = false) :
      Goes canceled s (.registerEnter id (some c)) .go { supervisor := s.enroll id (some c) }
  | enterEmpty (id : Identifier) :
      Goes canceled s (.registerEnter id none) .go
        { supervisor := s.enroll id none, next := some (.registerReport none) }
  | closeStale (c : C) :
      Goes canceled s (.registerReport (some c)) .go { supervisor := s, closed := [c] }
  | reportEmpty : Goes canceled s (.registerReport none) .go (s.report [])
  | takeNot (id : Identifier) (hr : s.recovering = true ∨ s.slots.get? id = none) :
      Goes canceled s (.renewTake id) .go { supervisor := s }
  | take (id : Identifier) (old : Option C) (hr : s.recovering = false)
      (hs : s.slots.get? id = some old) :
      Goes canceled s (.renewTake id) .go
        { supervisor := s.setSlot id none, next := some (.renewClose id old) }
  | renewClose (id : Identifier) (old : Option C) :
      Goes canceled s (.renewClose id old) .go
        { supervisor := s, next := some (.renewOpen id), closed := old.toList }
  | renewOpened (id : Identifier) (c : C) :
      Goes canceled s (.renewOpen id) (.opened c)
        { supervisor := s, next := some (.renewGive id c) }
  | renewFailed (id : Identifier) :
      Goes canceled s (.renewOpen id) .failed
        { supervisor := s, next := some (.renewReport none) }
  | give (id : Identifier) (c : C) (hr : s.recovering = false)
      (hs : s.slots.get? id = some none) :
      Goes canceled s (.renewGive id c) .go { supervisor := s.setSlot id (some c) }
  | giveNot (id : Identifier) (c : C)
      (h : s.slots.get? id = some none → s.recovering = true) :
      Goes canceled s (.renewGive id c) .go
        { supervisor := s, next := some (.renewReport (some c)) }
  | closeLeftover (c : C) :
      Goes canceled s (.renewReport (some c)) .go { supervisor := s, closed := [c] }
  | reportUnrenewed : Goes canceled s (.renewReport none) .go (s.report [])
  | remove (id : Identifier) :
      Goes canceled s (.remove id) .go
        { supervisor := s.withdraw id
          next := some (.removeClose (s.slots.get? id).join.toList false) }
  | removeAll (shut : Bool) :
      Goes canceled s (.removeAll shut) .go
        { supervisor := s.withdrawAll, next := some (.removeClose s.occupied shut) }
  | removeClose (old : List C) :
      Goes canceled s (.removeClose old false) .go { supervisor := s, closed := old }
  | removeCloseShut (old : List C) :
      Goes canceled s (.removeClose old true) .go
        { supervisor := s, next := some .removeShut, closed := old }
  | removeShut :
      Goes canceled s .removeShut .go { supervisor := s, shutsTransport := true }
  | recover :
      Goes canceled s .recover .go
        { supervisor := { s with cycles := s.cycles + 1 }, next := some .discard }
  | discard :
      Goes canceled s .discard .go
        { supervisor := s.clearSlots, next := some (.discardClose s.occupied) }
  | discardClose (old : List C) :
      Goes canceled s (.discardClose old) .go
        { supervisor := s, next := some .probe, closed := old }
  | probe (hc : canceled = false) :
      Goes canceled s .probe .go { supervisor := s, next := some .probeOpen }
  | probeStopped (hc : canceled = true) : Goes canceled s .probe .stopped s.stopRecovery
  | probeOpened (c : C) :
      Goes canceled s .probeOpen (.opened c) { supervisor := s, next := some (.probeAsk c) }
  | probeFailed :
      Goes canceled s .probeOpen .failed { supervisor := s, next := some .pause }
  | probeAnswered (c : C) :
      Goes canceled s (.probeAsk c) .go { supervisor := s, next := some (.probeClose c true) }
  | probeSilent (c : C) :
      Goes canceled s (.probeAsk c) .failed
        { supervisor := s, next := some (.probeClose c false) }
  | probeSucceeded (c : C) :
      Goes canceled s (.probeClose c true) .go
        { supervisor := s, next := some .republish, closed := [c] }
  | probeMissed (c : C) :
      Goes canceled s (.probeClose c false) .go
        { supervisor := s, next := some .pause, closed := [c] }
  | pause : Goes canceled s .pause .go { supervisor := s, next := some .probe }
  | pauseStopped (hc : canceled = true) : Goes canceled s .pause .stopped s.stopRecovery
  | republish :
      Goes canceled s .republish .go
        { supervisor := s, next := some (.republishOpen s.waiting []) }
  | republishOpened (id : Identifier) (ids : List Identifier) (fresh : List (Identifier × C))
      (c : C) :
      Goes canceled s (.republishOpen (id :: ids) fresh) (.opened c)
        { supervisor := s, next := some (.republishOpen ids (fresh ++ [(id, c)])) }
  | republishFailed (id : Identifier) (ids : List Identifier) (fresh : List (Identifier × C)) :
      Goes canceled s (.republishOpen (id :: ids) fresh) .failed
        { supervisor := s, next := some (.republishAbandon (fresh.map Prod.snd)) }
  | republishReady (fresh : List (Identifier × C)) :
      Goes canceled s (.republishOpen [] fresh) .go
        { supervisor := s, next := some (.republishGive fresh) }
  | abandon (fresh : List C) :
      Goes canceled s (.republishAbandon fresh) .go
        { supervisor := s, next := some .pause, closed := fresh }
  | publishAll (fresh : List (Identifier × C)) (hf : (s.publish fresh).1.isFull = true) :
      Goes canceled s (.republishGive fresh) .go
        { supervisor := { (s.publish fresh).1 with recovering := false }
          next := some (.republishClose (s.publish fresh).2 true) }
  | publishSome (fresh : List (Identifier × C)) (hf : (s.publish fresh).1.isFull = false) :
      Goes canceled s (.republishGive fresh) .go
        { supervisor := (s.publish fresh).1
          next := some (.republishClose (s.publish fresh).2 false) }
  | republishDone (unused : List C) :
      Goes canceled s (.republishClose unused true) .go
        { supervisor := s, next := some .announce, closed := unused }
  | republishAgain (unused : List C) :
      Goes canceled s (.republishClose unused false) .go
        { supervisor := s, next := some .republish, closed := unused }
  | announce :
      Goes canceled s .announce .go { supervisor := { s with generation := s.generation + 1 } }

@[simp] theorem report_supervisor (s : Supervisor C) (closed : List C) :
    (s.report closed).supervisor = { s with recovering := true } := by
  rw [report]
  cases hr : s.recovering with
  | false => rfl
  | true =>
    rw [if_pos rfl]
    cases s
    cases hr
    rfl

@[simp] theorem report_next (s : Supervisor C) (closed : List C) :
    (s.report closed).next = none := by
  rw [report]
  split <;> rfl

@[simp] theorem report_startsRecovery (s : Supervisor C) (closed : List C) :
    (s.report closed).startsRecovery = !s.recovering := by
  rw [report]
  cases s.recovering <;> rfl

theorem go_of_allows {canceled : Bool} {stage : Stage C} {signal : Signal C}
    (hn : stage.need = .nothing) (ha : stage.allows canceled signal = true) : signal = .go := by
  cases signal <;> simp [Stage.allows, hn] at ha ⊢

theorem opened_or_failed {canceled : Bool} {stage : Stage C} {signal : Signal C}
    (hn : stage.need = .connection) (ha : stage.allows canceled signal = true) :
    (∃ c, signal = .opened c) ∨ signal = .failed := by
  cases signal <;> simp [Stage.allows, hn] at ha ⊢

theorem go_or_failed {canceled : Bool} {stage : Stage C} {signal : Signal C} {c : C}
    (hn : stage.need = .answer c) (ha : stage.allows canceled signal = true) :
    signal = .go ∨ signal = .failed := by
  cases signal <;> simp [Stage.allows, hn] at ha ⊢

theorem go_or_stopped {canceled : Bool} {stage : Stage C} {signal : Signal C}
    (hn : stage.need = .leave ∨ stage.need = .rest)
    (ha : stage.allows canceled signal = true) :
    (signal = .go ∧ (stage.need = .leave → canceled = false)) ∨
      signal = .stopped ∧ canceled = true := by
  rcases hn with hn | hn <;> cases signal <;> simp [Stage.allows, hn] at ha ⊢ <;> exact ha

/-- A stage that goes on with a signal it allows follows the rules. -/
theorem goes_resume {canceled : Bool} (s : Supervisor C) {stage : Stage C} {signal : Signal C}
    (ha : stage.allows canceled signal = true) :
    Goes canceled s stage signal (s.resume stage signal) := by
  cases stage with
  | registerOpen id =>
    obtain ⟨c, rfl⟩ | rfl := opened_or_failed rfl ha
    · exact .registerOpened id c
    · exact .registerFailed id
  | registerEnter id opened =>
    obtain rfl := go_of_allows rfl ha
    cases opened with
    | none => exact .enterEmpty id
    | some c =>
      simp only [resume]
      split
      · exact .enterLate id c ‹_›
      · exact .enterInTime id c (eq_false_of_ne_true ‹_›)
  | registerReport stale =>
    obtain rfl := go_of_allows rfl ha
    cases stale with
    | none => exact .reportEmpty
    | some c => exact .closeStale c
  | renewTake id =>
    obtain rfl := go_of_allows rfl ha
    simp only [resume]
    split
    · exact .takeNot id (.inl ‹_›)
    · split
      · exact .take id _ (eq_false_of_ne_true ‹_›) ‹_›
      · exact .takeNot id (.inr ‹_›)
  | renewClose id old =>
    obtain rfl := go_of_allows rfl ha
    exact .renewClose id old
  | renewOpen id =>
    obtain ⟨c, rfl⟩ | rfl := opened_or_failed rfl ha
    · exact .renewOpened id c
    · exact .renewFailed id
  | renewGive id fresh =>
    obtain rfl := go_of_allows rfl ha
    simp only [resume]
    split
    · exact .give id fresh ‹_› ‹_›
    · rename_i hg
      apply Goes.giveNot id fresh
      intro hs
      cases hr : s.recovering with
      | true => rfl
      | false => exact absurd hr (hg hs)
  | renewReport leftover =>
    obtain rfl := go_of_allows rfl ha
    cases leftover with
    | none => exact .reportUnrenewed
    | some c => exact .closeLeftover c
  | remove id =>
    obtain rfl := go_of_allows rfl ha
    exact .remove id
  | removeAll shut =>
    obtain rfl := go_of_allows rfl ha
    exact .removeAll shut
  | removeClose old shut =>
    obtain rfl := go_of_allows rfl ha
    cases shut with
    | false => exact .removeClose old
    | true => exact .removeCloseShut old
  | removeShut =>
    obtain rfl := go_of_allows rfl ha
    exact .removeShut
  | recover =>
    obtain rfl := go_of_allows rfl ha
    exact .recover
  | discard =>
    obtain rfl := go_of_allows rfl ha
    exact .discard
  | discardClose old =>
    obtain rfl := go_of_allows rfl ha
    exact .discardClose old
  | probe =>
    obtain ⟨rfl, hc⟩ | ⟨rfl, hc⟩ := go_or_stopped (.inl rfl) ha
    · exact .probe (hc rfl)
    · exact .probeStopped hc
  | probeOpen =>
    obtain ⟨c, rfl⟩ | rfl := opened_or_failed rfl ha
    · exact .probeOpened c
    · exact .probeFailed
  | probeAsk c =>
    obtain rfl | rfl := go_or_failed rfl ha
    · exact .probeAnswered c
    · exact .probeSilent c
  | probeClose c answered =>
    obtain rfl := go_of_allows rfl ha
    cases answered with
    | false => exact .probeMissed c
    | true => exact .probeSucceeded c
  | pause =>
    obtain ⟨rfl, -⟩ | ⟨rfl, hc⟩ := go_or_stopped (.inr rfl) ha
    · exact .pause
    · exact .pauseStopped hc
  | republish =>
    obtain rfl := go_of_allows rfl ha
    exact .republish
  | republishOpen waiting fresh =>
    cases waiting with
    | nil =>
      obtain rfl := go_of_allows rfl ha
      exact .republishReady fresh
    | cons id ids =>
      obtain ⟨c, rfl⟩ | rfl := opened_or_failed rfl ha
      · exact .republishOpened id ids fresh c
      · exact .republishFailed id ids fresh
  | republishAbandon fresh =>
    obtain rfl := go_of_allows rfl ha
    exact .abandon fresh
  | republishGive fresh =>
    obtain rfl := go_of_allows rfl ha
    simp only [resume]
    split
    · exact .publishAll fresh ‹_›
    · exact .publishSome fresh (eq_false_of_ne_true ‹_›)
  | republishClose unused full =>
    obtain rfl := go_of_allows rfl ha
    cases full with
    | false => exact .republishAgain unused
    | true => exact .republishDone unused
  | announce =>
    obtain rfl := go_of_allows rfl ha
    exact .announce

end Reconnect.Supervisor
