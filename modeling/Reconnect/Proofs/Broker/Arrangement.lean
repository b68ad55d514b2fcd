import Reconnect.Broker.Arrangement
import Reconnect.Proofs.Execution

/-!
# How an arrangement goes on

`Arrangement.Goes` lists, rule by rule, what one step of an arrangement does; `goes_step` shows that
the arrangements of every site follow these rules.
-/

namespace Reconnect.Broker

variable {S C : Type}

/-! ## Records in their places -/

section Records

variable (w : World (Station S) C) (i : Nat) (f : Record → Record)

@[simp] theorem changeRecord_store : (changeRecord w i f).site.store = w.site.store := rfl

@[simp] theorem changeRecord_get? :
    (changeRecord w i f).site.records[i]? = w.site.records[i]?.map f :=
  List.getElem?_modify_eq f i w.site.records

theorem recordAt_of_get? {w : World (Station S) C} {i : Nat} {r : Record}
    (h : w.site.records[i]? = some r) : recordAt w i = r := by
  rw [recordAt, List.getD_eq_getElem?_getD, h, Option.getD_some]

end Records

variable [Site S C] [Channels S C]

namespace Arrangement

/-- One step of an arrangement: the world and the step that come of it. -/
inductive Goes (w : World (Station S) C) (opens : Bool) (a : Arrangement C) :
    World (Station S) C → Step (Arrangement C) (Except (MessagingError Fault) Unit) → Prop
  | done (hp : a.phase = .ready) (hs : a.steps = []) : Goes w opens a w (.ends (.ok ()))
  | turn {s : TopologyStep} {rest : List TopologyStep} (hp : a.phase = .ready)
      (hs : a.steps = s :: rest) :
      Goes w opens a w
        (.moves { a with steps := rest, phase := .asking s (execution a.topology) })
  | askWaits {s : TopologyStep} {e e' : Execution C} {w' : World (Station S) C}
      (hp : a.phase = .asking s e) (he : e.Goes (asking s.request) w opens w' (.waits e')) :
      Goes w opens a w' (.waits { a with phase := .asking s e' })
  | askMoves {s : TopologyStep} {e e' : Execution C} {w' : World (Station S) C}
      (hp : a.phase = .asking s e) (he : e.Goes (asking s.request) w opens w' (.moves e')) :
      Goes w opens a w' (.moves { a with phase := .asking s e' })
  | askFailed {s : TopologyStep} {e : Execution C} {w' : World (Station S) C} {n : Nat}
      {err : CallError Fault} (hp : a.phase = .asking s e)
      (he : e.Goes (asking s.request) w opens w' (.ends ⟨n, .error err⟩)) :
      Goes w opens a w' (.ends (.error (.client err)))
  | refused {s : TopologyStep} {e : Execution C} {w' : World (Station S) C} {n : Nat}
      {b : QueueBinding} {f : Fault} (hp : a.phase = .asking s e)
      (he : e.Goes (asking s.request) w opens w' (.ends ⟨n, .ok (.refused b f)⟩)) :
      Goes w opens a w'
        (.moves { a with phase := .withdrawing s.name b f (execution a.topology) })
  | succeed {s : TopologyStep} {e : Execution C} {w' : World (Station S) C} {n : Nat}
      {reply : Reply C} (hp : a.phase = .asking s e) (hr : ∀ b f, reply ≠ .refused b f)
      (he : e.Goes (asking s.request) w opens w' (.ends ⟨n, .ok reply⟩)) :
      Goes w opens a (changeRecord w' a.topology.record (s.update ·))
        (.moves { a with phase := .ready })
  | withdrawWaits {queue : String} {b : QueueBinding} {f : Fault} {e e' : Execution C}
      {w' : World (Station S) C} (hp : a.phase = .withdrawing queue b f e)
      (he : e.Goes (asking (.deleteQueue queue true true)) w opens w' (.waits e')) :
      Goes w opens a w' (.waits { a with phase := .withdrawing queue b f e' })
  | withdrawMoves {queue : String} {b : QueueBinding} {f : Fault} {e e' : Execution C}
      {w' : World (Station S) C} (hp : a.phase = .withdrawing queue b f e)
      (he : e.Goes (asking (.deleteQueue queue true true)) w opens w' (.moves e')) :
      Goes w opens a w' (.moves { a with phase := .withdrawing queue b f e' })
  | withdrawn {queue : String} {b : QueueBinding} {f : Fault} {e : Execution C}
      {w' : World (Station S) C} {o : Execution.Outcome (Reply C)}
      (hp : a.phase = .withdrawing queue b f e)
      (he : e.Goes (asking (.deleteQueue queue true true)) w opens w' (.ends o)) :
      Goes w opens a w' (.ends (.error (.queueBind queue b.exchange b.routingKey f)))

/-- A step of an arrangement follows the rules. -/
theorem goes_step (w : World (Station S) C) (opens : Bool) (a : Arrangement C) :
    Goes w opens a (a.step w opens).1 (a.step w opens).2 := by
  cases hp : a.phase with
  | ready =>
    simp only [step, hp]
    cases hs : a.steps with
    | nil => exact .done hp hs
    | cons s rest => exact .turn hp hs
  | asking s e =>
    have he := e.goes_step (asking s.request) w opens
    simp only [step, hp]
    generalize e.step (asking s.request) w opens = r at he ⊢
    rcases r with ⟨w', e' | e' | ⟨n, err | reply⟩⟩
    · exact .askWaits hp he
    · exact .askMoves hp he
    · exact .askFailed hp he
    · -- only a refused binding keeps the arrangement from its next step
      cases reply with
      | refused b f => exact .refused hp he
      | done => exact .succeed hp (fun _ _ h => by cases h) he
      | confirmed c => exact .succeed hp (fun _ _ h => by cases h) he
      | opened channel stream => exact .succeed hp (fun _ _ h => by cases h) he
  | withdrawing queue b f e =>
    have he := e.goes_step (asking (.deleteQueue queue true true)) w opens
    simp only [step, hp]
    generalize e.step (asking (.deleteQueue queue true true)) w opens = r at he ⊢
    rcases r with ⟨w', e' | e' | o⟩
    · exact .withdrawWaits hp he
    · exact .withdrawMoves hp he
    · exact .withdrawn hp he

end Arrangement

end Reconnect.Broker
