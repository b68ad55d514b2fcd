import Reconnect.Execution

/-!
# Operations that behave as they are told

In a rehearsal an operation succeeds, fails, takes time, looks at its connection, or cancels a
context, attempt by attempt.
-/

namespace Reconnect.Rehearsal

/-- How an attempt of an operation behaves. -/
inductive Behaviour where
  | ok
  | fault (f : Fault)
  /-- It takes time first. -/
  | after (delay : Millis) (rest : Behaviour)
  /-- It looks at its connection. -/
  | inspect
  /-- It cancels a context first. -/
  | canceling (context : String) (rest : Behaviour)
  deriving DecidableEq, Repr, Inhabited

/-- The behaviour of the attempt of a number, counted from zero. The last one repeats, and without
any an operation succeeds. -/
def behaviourOf (bs : List Behaviour) (n : Nat) : Behaviour :=
  match bs[n]? with
  | some b => b
  | none => bs.getLast?.getD .ok

/-- An attempt on its way. -/
inductive Acting (C : Type) where
  | acting (number : Nat) (c : C) (b : Behaviour)
  | pausing (number : Nat) (c : C) (due : Millis) (b : Behaviour)
  deriving DecidableEq, Repr

/-- The operation whose attempts behave as `behaviour` says. `fault?` tells what a look at a
connection finds, and `answer` what an attempt of a number, counted from one, succeeds with. -/
def acting {S C α : Type} (behaviour : Nat → Behaviour) (fault? : S → C → Option Fault)
    (answer : World S C → Nat → α) : Operation (World S C) C (Acting C) α where
  begin n c := .acting (n + 1) c (behaviour n)
  step w
    | .acting n _ .ok => (w, .ends (.ok (answer w n)))
    | .acting _ _ (.fault f) => (w, .ends (.error f))
    | .acting n c (.after delay rest) => (w, .moves (.pausing n c (w.now + delay) rest))
    | .acting n c .inspect =>
      match fault? w.site c with
      | some f => (w, .ends (.error f))
      | none => (w, .ends (.ok (answer w n)))
    | .acting n c (.canceling context rest) => (w.cancel context, .moves (.acting n c rest))
    | .pausing n c due rest =>
      if due ≤ w.now then (w, .moves (.acting n c rest)) else (w, .waits (.pausing n c due rest))
  wakes
    | .acting _ _ _ => []
    | .pausing _ _ due _ => [.time due]

end Reconnect.Rehearsal
