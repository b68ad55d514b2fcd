import Reconnect.Cache.GuardedWork
import Reconnect.Proofs.Cache.LockCall

/-!
# How work under locks goes on

`GuardedWork.Goes` lists, rule by rule, what one step of work under locks does, in terms of the
rules of the call that is under way; `goes_step` shows that work under locks follows them, whatever
its operation.
-/

namespace Reconnect.Cache

variable {S C K α : Type} [Site S C] [Keeper S C]

namespace GuardedWork

/-- One step of work under locks: the world and the step that come of it. -/
inductive Goes (op : Operation (World (Guarded S) C) C K α) (w : World (Guarded S) C)
    (opens : Bool) (g : GuardedWork C K α) :
    World (Guarded S) C → Step (GuardedWork C K α) (Outcome α) → Prop
  | refused {resources : List String} {err : LockError Fault}
      (hp : g.phase = .entering resources) (hl : Lock.ofResources resources = .error err) :
      Goes op w opens g w (.ends ⟨0, .error err⟩)
  | enter {resources : List String} {l : Lock} (hp : g.phase = .entering resources)
      (hl : Lock.ofResources resources = .ok l) :
      Goes op w opens g (addLock w l).1 (.moves { g with
        phase := .acquiring
          { client := g.client, context := g.context, lock := w.site.locks.length } })
  | acquireWaits {a a' : Acquisition C} {w' : World (Guarded S) C} (hp : g.phase = .acquiring a)
      (ha : a.Goes w opens w' (.waits a')) :
      Goes op w opens g w' (.waits { g with phase := .acquiring a' })
  | acquireMoves {a a' : Acquisition C} {w' : World (Guarded S) C} (hp : g.phase = .acquiring a)
      (ha : a.Goes w opens w' (.moves a')) :
      Goes op w opens g w' (.moves { g with phase := .acquiring a' })
  | acquireFailed {a : Acquisition C} {w' : World (Guarded S) C} {err : LockError Fault}
      (hp : g.phase = .acquiring a) (ha : a.Goes w opens w' (.ends (.error err))) :
      Goes op w opens g w' (.ends ⟨0, .error err⟩)
  | acquired {a : Acquisition C} {w' : World (Guarded S) C} (hp : g.phase = .acquiring a)
      (ha : a.Goes w opens w' (.ends (.ok ()))) :
      Goes op w opens g w' (.moves { g with
        phase := .working a.lock (.start g.client.client g.client.client.defaultTimeout) })
  | workWaits {lock : Nat} {e e' : Execution K} {w' : World (Guarded S) C}
      (hp : g.phase = .working lock e) (he : e.Goes op w opens w' (.waits e')) :
      Goes op w opens g w' (.waits { g with phase := .working lock e' })
  | workMoves {lock : Nat} {e e' : Execution K} {w' : World (Guarded S) C}
      (hp : g.phase = .working lock e) (he : e.Goes op w opens w' (.moves e')) :
      Goes op w opens g w' (.moves { g with phase := .working lock e' })
  | worked {lock : Nat} {e : Execution K} {w' : World (Guarded S) C} {o : Execution.Outcome α}
      (hp : g.phase = .working lock e) (he : e.Goes op w opens w' (.ends o)) :
      Goes op w opens g w' (.moves { g with
        phase := .releasing { client := g.client, context := none, lock } o })
  | releaseWaits {r r' : Release C} {o : Execution.Outcome α} {w' : World (Guarded S) C}
      (hp : g.phase = .releasing r o) (hr : r.Goes w opens w' (.waits r')) :
      Goes op w opens g w' (.waits { g with phase := .releasing r' o })
  | releaseMoves {r r' : Release C} {o : Execution.Outcome α} {w' : World (Guarded S) C}
      (hp : g.phase = .releasing r o) (hr : r.Goes w opens w' (.moves r')) :
      Goes op w opens g w' (.moves { g with phase := .releasing r' o })
  | released {r : Release C} {o : Execution.Outcome α} {w' : World (Guarded S) C}
      {result : Except (LockError Fault) Unit} (hp : g.phase = .releasing r o)
      (hr : r.Goes w opens w' (.ends result)) :
      Goes op w opens g w' (.ends (outcome o))

/-- A step of work under locks follows the rules. -/
theorem goes_step (op : Operation (World (Guarded S) C) C K α) (w : World (Guarded S) C)
    (opens : Bool) (g : GuardedWork C K α) :
    Goes op w opens g (g.step op w opens).1 (g.step op w opens).2 := by
  cases hp : g.phase with
  | entering resources =>
    simp only [step, hp]
    cases hl : Lock.ofResources resources with
    | error err => exact .refused hp hl
    | ok l => exact .enter hp hl
  | acquiring a =>
    have ha := a.goes_step w opens
    simp only [step, hp]
    generalize a.step w opens = r at ha ⊢
    rcases r with ⟨w', a' | a' | (err | _)⟩
    · exact .acquireWaits hp ha
    · exact .acquireMoves hp ha
    · exact .acquireFailed hp ha
    · exact .acquired hp ha
  | working lock e =>
    have he := e.goes_step op w opens
    simp only [step, hp]
    generalize e.step op w opens = r at he ⊢
    rcases r with ⟨w', e' | e' | o⟩
    · exact .workWaits hp he
    · exact .workMoves hp he
    · exact .worked hp he
  | releasing r o =>
    have hr := r.goes_step w opens
    simp only [step, hp]
    generalize r.step w opens = t at hr ⊢
    rcases t with ⟨w', r' | r' | result⟩
    · exact .releaseWaits hp hr
    · exact .releaseMoves hp hr
    · exact .released hp hr

end GuardedWork

end Reconnect.Cache
