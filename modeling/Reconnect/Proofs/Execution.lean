import Reconnect.Execution

/-!
# How an execution goes on

`Works` lists, rule by rule, what one step of an execution that has begun and is not canceled does;
`Goes` adds the beginning and the cancellation. `goes_step` shows that `step` follows these rules.
`Goes.atOnce` reads off what they say about an operation that comes to its end at once.
-/

namespace Reconnect.Execution

variable {S C K α : Type} [Site S C]

/-- One step of an execution that has begun and is not canceled: the world and the step that come
of it. -/
inductive Works (op : Operation (World S C) C K α) (w : World S C) (e : Execution K) :
    World S C → Step (Execution K) (Outcome α) → Prop
  | detached (hp : e.phase = .seeking) (ha : w.attached = false) :
      Works op w e w (e.finish (.error .clientDetached))
  | connect {c : C} (hp : e.phase = .seeking) (ha : w.attached = true)
      (hc : w.connection? e.client.id = some c) :
      Works op w e w (.moves { e with
        attempts := e.attempts + 1, phase := .running (op.begin e.attempts c) })
  | miss (hp : e.phase = .seeking) (ha : w.attached = true)
      (hc : w.connection? e.client.id = none) :
      Works op w e w (.moves { e with phase := .resting (w.after e.client.retryWait) })
  | workWaits {state state' : K} {w' : World S C} (hp : e.phase = .running state)
      (hs : op.step w state = (w', .waits state')) :
      Works op w e w' (waitOrExpire w' { e with phase := .running state' })
  | workMoves {state state' : K} {w' : World S C} (hp : e.phase = .running state)
      (hs : op.step w state = (w', .moves state')) :
      Works op w e w' (.moves { e with phase := .running state' })
  | succeed {state : K} {a : α} {w' : World S C} (hp : e.phase = .running state)
      (hs : op.step w state = (w', .ends (.ok a))) : Works op w e w' (e.finish (.ok a))
  | retry {state : K} {fault : Fault} {w' : World S C} (hp : e.phase = .running state)
      (hs : op.step w state = (w', .ends (.error fault))) (hf : fault.isNetwork = true) :
      Works op w e w'.report (.moves { e with phase := .resting (w'.after e.client.retryWait) })
  | refuse {state : K} {fault : Fault} {w' : World S C} (hp : e.phase = .running state)
      (hs : op.step w state = (w', .ends (.error fault))) (hf : fault.isNetwork = false) :
      Works op w e w' (e.finish (.error (.operation fault)))
  | wake {till : Event} (hp : e.phase = .resting till) (hh : w.hasHappened till = true) :
      Works op w e w (.moves { e with phase := .seeking })
  | rest {till : Event} (hp : e.phase = .resting till) (hh : w.hasHappened till = false) :
      Works op w e w (waitOrExpire w e)

/-- One step of an execution: the world and the step that come of it. -/
inductive Goes (op : Operation (World S C) C K α) (w : World S C) (opens : Bool)
    (e : Execution K) : World S C → Step (Execution K) (Outcome α) → Prop
  | canceled (h : opens = true ∨ ∃ timeout, e.phase = .entering timeout)
      (hc : w.isCanceled e.client.context = true) :
      Goes op w opens e w (e.finish (.error .contextCanceled))
  | enter {timeout : Millis} (hp : e.phase = .entering timeout)
      (hc : w.isCanceled e.client.context = false) :
      Goes op w opens e w (.moves { e with deadline := w.now + timeout, phase := .seeking })
  | works {w' : World S C} {s : Step (Execution K) (Outcome α)}
      (hc : opens = true → w.isCanceled e.client.context = false) (h : Works op w e w' s) :
      Goes op w opens e w' s

omit [Site S C] in
/-- An execution that waits has not ended otherwise than by running out of time. -/
theorem waitOrExpire_cases (w : World S C) (e : Execution K) :
    waitOrExpire (α := α) w e = .waits e ∧ w.now < e.deadline ∨
      waitOrExpire (α := α) w e = e.finish (.error .operationTimeout) ∧ e.deadline ≤ w.now := by
  rw [waitOrExpire]
  split
  case isTrue h => exact .inr ⟨rfl, h⟩
  case isFalse h => exact .inl ⟨rfl, Nat.lt_of_not_le h⟩

omit [Site S C] in
theorem late_of_ends {w : World S C} {e : Execution K} {o : Outcome α}
    (h : waitOrExpire w e = .ends o) :
    o = ⟨e.attempts, .error .operationTimeout⟩ ∧ e.deadline ≤ w.now := by
  rcases waitOrExpire_cases (α := α) w e with ⟨hw, -⟩ | ⟨hw, hlate⟩ <;> rw [hw] at h <;> cases h
  exact ⟨rfl, hlate⟩

variable (op : Operation (World S C) C K α) (w : World S C) (opens : Bool) (e : Execution K)

/-- A step of an execution that has begun and is not canceled follows the rules. -/
theorem works_step (hp : ∀ timeout, e.phase ≠ .entering timeout)
    (hc : opens = true → w.isCanceled e.client.context = false) :
    Works op w e (e.step op w opens).1 (e.step op w opens).2 := by
  have hcan : ¬ (opens && w.isCanceled e.client.context) = true := by
    rw [Bool.and_eq_true]
    rintro ⟨ho, hcan⟩
    rw [hc ho] at hcan
    cases hcan
  rw [step]
  cases hph : e.phase with
  | entering timeout => exact absurd hph (hp timeout)
  | seeking =>
    simp only [if_neg hcan]
    cases ha : w.attached with
    | false => exact .detached hph ha
    | true =>
      cases hconn : w.connection? e.client.id with
      | none => exact .miss hph ha hconn
      | some c => exact .connect hph ha hconn
  | running state =>
    simp only [if_neg hcan]
    rcases hs : op.step w state with ⟨w', state' | state' | (fault | a)⟩
    · exact .workWaits hph hs
    · exact .workMoves hph hs
    · cases hf : fault.isNetwork with
      | false =>
        simp only [hf]
        exact .refuse hph hs hf
      | true =>
        simp only [hf]
        exact .retry hph hs hf
    · exact .succeed hph hs
  | resting till =>
    simp only [if_neg hcan]
    cases hh : w.hasHappened till with
    | false => exact .rest hph hh
    | true => exact .wake hph hh

/-- A step of an execution follows the rules. -/
theorem goes_step : Goes op w opens e (e.step op w opens).1 (e.step op w opens).2 := by
  -- a cancellation is noticed before the first step, and later only where the step allows it
  by_cases hc : w.isCanceled e.client.context = true
  · cases hph : e.phase with
    | entering timeout =>
      have hstep : e.step op w opens = (w, e.finish (.error .contextCanceled)) := by
        simp [step, hph, hc]
      rw [hstep]
      exact .canceled (.inr ⟨timeout, hph⟩) hc
    | _ =>
      cases opens with
      | true =>
        have hstep : e.step op w true = (w, e.finish (.error .contextCanceled)) := by
          simp [step, hph, hc]
        rw [hstep]
        exact .canceled (.inl rfl) hc
      | false => exact .works nofun (works_step op w false e (by simp [hph]) nofun)
  · rw [Bool.not_eq_true] at hc
    cases hph : e.phase with
    | entering timeout =>
      have hstep : e.step op w opens =
          (w, .moves { e with deadline := w.now + timeout, phase := .seeking }) := by
        simp [step, hph, hc]
      rw [hstep]
      exact .enter hph hc
    | _ => exact .works (fun _ => hc) (works_step op w opens e (by simp [hph]) fun _ => hc)

/-- No work is done before an execution has begun. -/
theorem Works.not_entering {op : Operation (World S C) C K α} {w w' : World S C}
    {e : Execution K} {s : Step (Execution K) (Outcome α)} (h : Works op w e w' s)
    (timeout : Millis) : e.phase ≠ .entering timeout := by
  intro he
  cases h <;> simp_all only [reduceCtorEq]

/-- An execution whose context has been canceled ends before its first step, and later as soon as it
has another turn. -/
theorem Goes.of_canceled {op : Operation (World S C) C K α} {w w' : World S C} {opens : Bool}
    {e : Execution K} {s : Step (Execution K) (Outcome α)} (hg : Goes op w opens e w' s)
    (hc : w.isCanceled e.client.context = true)
    (ho : opens = true ∨ ∃ timeout, e.phase = .entering timeout) :
    s = e.finish (.error .contextCanceled) := by
  cases hg with
  | canceled => rfl
  | enter _ hn =>
    rw [hc] at hn
    cases hn
  | works hn h =>
    rcases ho with ho | ⟨timeout, he⟩
    · rw [hn ho] at hc
      cases hc
    · exact absurd he (h.not_entering timeout)

/-- What an operation that comes to its end at once leaves behind: it has not run, or it has
succeeded, or it has failed and a failure of the network may have been reported. -/
inductive AtOnce (run : World S C → C → World S C × Except Fault α) (w : World S C)
    (e : Execution C) : World S C → Step (Execution C) (Outcome α) → Prop
  | idle {s : Step (Execution C) (Outcome α)} (hs : ∀ n a, s ≠ .ends ⟨n, .ok a⟩) :
      AtOnce run w e w s
  | succeed {c : C} {a : α} {w' : World S C} (hp : e.phase = .running c)
      (hr : run w c = (w', .ok a)) : AtOnce run w e w' (e.finish (.ok a))
  | retry {c : C} {fault : Fault} {w' : World S C} (hp : e.phase = .running c)
      (hr : run w c = (w', .error fault)) (hf : fault.isNetwork = true) :
      AtOnce run w e w'.report
        (.moves { e with phase := .resting (w'.after e.client.retryWait) })
  | refuse {c : C} {fault : Fault} {w' : World S C} (hp : e.phase = .running c)
      (hr : run w c = (w', .error fault)) (hf : fault.isNetwork = false) :
      AtOnce run w e w' (e.finish (.error (.operation fault)))

theorem Goes.atOnce {run : World S C → C → World S C × Except Fault α} {w w' : World S C}
    {opens : Bool} {e : Execution C} {s : Step (Execution C) (Outcome α)}
    (h : Goes (.atOnce run) w opens e w' s) : AtOnce run w e w' s := by
  have hrun : ∀ {c : C} {w₁ : World S C} {r : Except Fault α},
      (Operation.atOnce run).step w c = (w₁, .ends r) → run w c = (w₁, r) := by
    intro c w₁ r hs
    rw [Operation.atOnce, Prod.mk.injEq, Step.ends.injEq] at hs
    exact Prod.ext hs.1 hs.2
  cases h with
  | canceled => exact .idle nofun
  | enter => exact .idle nofun
  | works _ h =>
    cases h with
    | detached => exact .idle nofun
    | connect => exact .idle nofun
    | miss => exact .idle nofun
    | workWaits _ hs => simp [Operation.atOnce] at hs
    | workMoves _ hs => simp [Operation.atOnce] at hs
    | succeed hp hs => exact .succeed hp (hrun hs)
    | retry hp hs hf => exact .retry hp (hrun hs) hf
    | refuse hp hs hf => exact .refuse hp (hrun hs) hf
    | wake => exact .idle nofun
    | rest =>
      apply AtOnce.idle
      intro n a
      obtain ⟨hw, -⟩ | ⟨hw, -⟩ := waitOrExpire_cases (α := α) w e <;> rw [hw] <;> nofun

end Reconnect.Execution
