import Reconnect.Cache.LockCall

/-!
# Work under locks

An operation runs while a lock of its own holds a set of resources. Whatever the operation comes
to, the lock is released after it, and nothing cancels that release; what the operation came to is
the result.
-/

namespace Reconnect.Cache

/-- What work under locks is doing. -/
inductive GuardedWork.Phase (C K α : Type) where
  /-- It has not begun. -/
  | entering (resources : List String)
  | acquiring (a : Acquisition C)
  | working (lock : Nat) (e : Execution K)
  | releasing (r : Release C) (o : Execution.Outcome α)

/-- An operation run under locks. -/
structure GuardedWork (C K α : Type) where
  client : LockClient
  context : Option String
  phase : GuardedWork.Phase C K α

/-- How work under locks ended. -/
structure GuardedWork.Outcome (α : Type) where
  /-- How many attempts the operation made. -/
  attempts : Nat
  result : Except (LockError Fault) α

namespace GuardedWork

variable {S C K α : Type} [Site S C] [Keeper S C]

/-- The result of the work, given that of its operation. -/
def outcome (o : Execution.Outcome α) : Outcome α :=
  ⟨o.attempts, o.result.mapError .client⟩

/-- One step of work under locks. -/
def step (op : Operation (World (Guarded S) C) C K α) (w : World (Guarded S) C) (opens : Bool)
    (g : GuardedWork C K α) :
    World (Guarded S) C × Step (GuardedWork C K α) (Outcome α) :=
  match g.phase with
  | .entering resources =>
    match Lock.ofResources resources with
    | .error e => (w, .ends ⟨0, .error e⟩)
    | .ok l =>
      let r := addLock w l
      (r.1, .moves { g with
        phase := .acquiring { client := g.client, context := g.context, lock := r.2 } })
  | .acquiring a =>
    let r := a.step w opens
    match r.2 with
    | .waits a => (r.1, .waits { g with phase := .acquiring a })
    | .moves a => (r.1, .moves { g with phase := .acquiring a })
    | .ends (.error e) => (r.1, .ends ⟨0, .error e⟩)
    | .ends (.ok _) =>
      let client := g.client.client
      (r.1, .moves { g with phase := .working a.lock (.start client client.defaultTimeout) })
  | .working lock e =>
    let r := e.step op w opens
    match r.2 with
    | .waits e => (r.1, .waits { g with phase := .working lock e })
    | .moves e => (r.1, .moves { g with phase := .working lock e })
    | .ends o =>
      (r.1, .moves { g with phase := .releasing { client := g.client, context := none, lock } o })
  | .releasing r o =>
    let t := r.step w opens
    match t.2 with
    | .waits r => (t.1, .waits { g with phase := .releasing r o })
    | .moves r => (t.1, .moves { g with phase := .releasing r o })
    | .ends _ => (t.1, .ends (outcome o))

/-- What work under locks waits for. -/
def wakes (op : Operation (World (Guarded S) C) C K α) (g : GuardedWork C K α) : List Event :=
  match g.phase with
  | .entering _ => []
  | .acquiring a => a.wakes (S := S)
  | .working _ e => e.wakes op
  | .releasing r _ => r.wakes (S := S)

omit [Site S C] [Keeper S C] in
/-- Whether work under locks holds the supervisor. -/
def holds (g : GuardedWork C K α) : Bool :=
  match g.phase with
  | .entering _ => false
  | .acquiring a => a.holds
  | .working _ e => e.holds
  | .releasing r _ => r.holds

end GuardedWork

end Reconnect.Cache
