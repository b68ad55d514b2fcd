import Reconnect.Cache.LockCall
import Reconnect.Proofs.Execution

/-!
# How the calls on locks go on

`Acquisition.Goes` and `Release.Goes` list, rule by rule, what one step of a call on a lock does,
guards included; `Acquisition.goes_step` and `Release.goes_step` show that the calls follow them.
The store is any keeper of tokens.
-/

namespace Reconnect.Cache

variable {S C : Type}

theorem Lock.token_of_held {l : Lock} {token : String} (h : l.held = .ok token) :
    l.token = some token := by
  unfold held at h
  split at h
  · cases h
  · split at h
    · cases h
    · split at h
      · cases h
      · cases h
        assumption

/-! ## Locks in their places -/

section Places

variable (w : World (Guarded S) C) (i j : Nat) (f : Lock → Lock)

theorem lockAt_changeLock :
    lockAt (changeLock w i f) j =
      if i = j ∧ j < w.site.locks.length then f (lockAt w j) else lockAt w j := by
  unfold lockAt changeLock
  rw [List.getD_eq_getElem?_getD, List.getD_eq_getElem?_getD, List.getElem?_modify]
  by_cases hj : j < w.site.locks.length
  · by_cases hi : i = j <;> simp [hi, hj]
  · by_cases hi : i = j <;> simp [hi, hj]

@[simp] theorem changeLock_get? :
    (changeLock w i f).site.locks[i]? = w.site.locks[i]?.map f :=
  List.getElem?_modify_eq f i w.site.locks

theorem lockAt_of_get? {w : World (Guarded S) C} {i : Nat} {l : Lock}
    (h : w.site.locks[i]? = some l) : lockAt w i = l := by
  rw [lockAt, List.getD_eq_getElem?_getD, h, Option.getD_some]

@[simp] theorem length_changeLock :
    (changeLock w i f).site.locks.length = w.site.locks.length :=
  List.length_modify f w.site.locks i

theorem lockAt_addLock (l : Lock) :
    lockAt (addLock w l).1 j = if j = w.site.locks.length then l else lockAt w j := by
  unfold lockAt addLock
  rw [List.getD_eq_getElem?_getD, List.getD_eq_getElem?_getD]
  rcases Nat.lt_trichotomy j w.site.locks.length with hj | rfl | hj
  · rw [if_neg (Nat.ne_of_lt hj), List.getElem?_append_left hj]
  · simp
  · simp [Nat.ne_of_gt hj, List.getElem?_eq_none (Nat.le_of_lt hj),
      List.getElem?_eq_none (l := w.site.locks ++ [l]) (i := j) (by simp; omega)]

end Places

variable [Site S C] [Keeper S C]

/-! ## Acquisitions -/

namespace Acquisition

/-- One step of an acquisition: the world and the step that come of it. -/
inductive Goes (w : World (Guarded S) C) (opens : Bool) (a : Acquisition C) :
    World (Guarded S) C → Step (Acquisition C) (Except (LockError Fault) Unit) → Prop
  | busy (hp : a.phase = .entering) (hi : (lockAt w a.lock).isIdle = false) :
      Goes w opens a w (.ends (.error .locksAlreadyAcquired))
  | enterStopped (hp : a.phase = .entering) (hi : (lockAt w a.lock).isIdle = true)
      (hc : stopped w a.context = true) :
      Goes w opens a (changeLock (changeLock w.draw.1 a.lock Lock.begin) a.lock Lock.giveUp)
        (.ends (.error .canceled))
  | enter (hp : a.phase = .entering) (hi : (lockAt w a.lock).isIdle = true)
      (hc : stopped w a.context = false) :
      Goes w opens a (changeLock w.draw.1 a.lock Lock.begin)
        (.moves { a with
          token := w.draw.2.text
          deadline := w.now + a.client.settings.acquireTimeout
          phase := .trying })
  | stop (hp : a.phase ≠ .entering) (ho : opens = true) (hc : stopped w a.context = true) :
      Goes w opens a (changeLock w a.lock Lock.giveUp) (.ends (.error .canceled))
  | expire (hp : a.phase = .trying) (hc : opens = true → stopped w a.context = false)
      (hd : a.deadline ≤ w.now) :
      Goes w opens a (changeLock w a.lock Lock.giveUp) (.ends (.error .lockAcquireTimeout))
  | ask (hp : a.phase = .trying) (hc : opens = true → stopped w a.context = false)
      (hd : w.now < a.deadline) :
      Goes w opens a w
        (.moves { a with phase := .asking (.start a.client.client (a.deadline - w.now)) })
  | askWaits {e e' : Execution C} {w' : World (Guarded S) C} (hp : a.phase = .asking e)
      (hc : opens = true → stopped w a.context = false)
      (he : e.Goes (offer (lockAt w a.lock).keys a.token a.client.settings.ttl) w opens w'
        (.waits e')) :
      Goes w opens a w' (.waits { a with phase := .asking e' })
  | askMoves {e e' : Execution C} {w' : World (Guarded S) C} (hp : a.phase = .asking e)
      (hc : opens = true → stopped w a.context = false)
      (he : e.Goes (offer (lockAt w a.lock).keys a.token a.client.settings.ttl) w opens w'
        (.moves e')) :
      Goes w opens a w' (.moves { a with phase := .asking e' })
  | take {e : Execution C} {w' : World (Guarded S) C} {n : Nat} (hp : a.phase = .asking e)
      (hc : opens = true → stopped w a.context = false)
      (he : e.Goes (offer (lockAt w a.lock).keys a.token a.client.settings.ttl) w opens w'
        (.ends ⟨n, .ok true⟩)) :
      Goes w opens a (changeLock w' a.lock (Lock.take · a.token w'.now)) (.ends (.ok ()))
  | takeNot {e : Execution C} {w' : World (Guarded S) C} {n : Nat} (hp : a.phase = .asking e)
      (hc : opens = true → stopped w a.context = false)
      (he : e.Goes (offer (lockAt w a.lock).keys a.token a.client.settings.ttl) w opens w'
        (.ends ⟨n, .ok false⟩)) :
      Goes w opens a w'.roll.1
        (.moves { a with
          phase := .resting (w'.roll.1.after
            (min (a.client.pause w'.roll.2) (a.deadline - w'.now))) })
  | outOfTime {e : Execution C} {w' : World (Guarded S) C} {n : Nat} (hp : a.phase = .asking e)
      (hc : opens = true → stopped w a.context = false)
      (he : e.Goes (offer (lockAt w a.lock).keys a.token a.client.settings.ttl) w opens w'
        (.ends ⟨n, .error .operationTimeout⟩)) :
      Goes w opens a (changeLock w' a.lock Lock.giveUp) (.ends (.error .lockAcquireTimeout))
  | askFailed {e : Execution C} {w' : World (Guarded S) C} {n : Nat} {err : CallError Fault}
      (hp : a.phase = .asking e) (hc : opens = true → stopped w a.context = false)
      (he : e.Goes (offer (lockAt w a.lock).keys a.token a.client.settings.ttl) w opens w'
        (.ends ⟨n, .error err⟩)) (hne : err ≠ .operationTimeout) :
      Goes w opens a (changeLock w' a.lock Lock.giveUp) (.ends (.error (.client err)))
  | wake {till : Event} (hp : a.phase = .resting till)
      (hc : opens = true → stopped w a.context = false) (hh : w.hasHappened till = true) :
      Goes w opens a w (.moves { a with phase := .trying })
  | rest {till : Event} (hp : a.phase = .resting till)
      (hc : opens = true → stopped w a.context = false) (hh : w.hasHappened till = false) :
      Goes w opens a w (.waits a)

/-- A step of an acquisition follows the rules. -/
theorem goes_step (w : World (Guarded S) C) (opens : Bool) (a : Acquisition C) :
    Goes w opens a (a.step w opens).1 (a.step w opens).2 := by
  -- an acquisition that begins looks at the lock before it looks at its context
  by_cases hent : a.phase = .entering
  · cases hi : (lockAt w a.lock).isIdle with
    | false =>
      have hstep : a.step w opens = (w, .ends (.error .locksAlreadyAcquired)) := by
        simp [step, hent, hi]
      rw [hstep]
      exact .busy hent hi
    | true =>
      have hsame : stopped (changeLock w.draw.1 a.lock Lock.begin) a.context =
          stopped w a.context := rfl
      cases hc : stopped w a.context with
      | true =>
        have hstep : a.step w opens =
            (changeLock (changeLock w.draw.1 a.lock Lock.begin) a.lock Lock.giveUp,
              .ends (.error .canceled)) := by
          simp [step, fail, hent, hi, hsame, hc]
        rw [hstep]
        exact .enterStopped hent hi hc
      | false =>
        have hstep : a.step w opens =
            (changeLock w.draw.1 a.lock Lock.begin, .moves { a with
              token := w.draw.2.text
              deadline := w.now + a.client.settings.acquireTimeout
              phase := .trying }) := by
          simp only [step, hent, hi, hsame, hc]
          rfl
        rw [hstep]
        exact .enter hent hi hc
  · -- afterwards a cancellation that is noticed comes first, in every phase
    by_cases hstop : (opens && stopped w a.context) = true
    · have hstep : a.step w opens =
          (changeLock w a.lock Lock.giveUp, .ends (.error .canceled)) := by
        cases hp : a.phase <;> simp_all [step, fail]
      rw [hstep]
      rw [Bool.and_eq_true] at hstop
      exact .stop hent hstop.1 hstop.2
    · have hc : opens = true → stopped w a.context = false := by
        intro ho
        simpa [ho] using hstop
      cases hp : a.phase with
      | entering => exact absurd hp hent
      | trying =>
        simp only [step, hp, if_neg hstop]
        split
        case isTrue hd => exact .expire hp hc hd
        case isFalse hd => exact .ask hp hc (Nat.lt_of_not_le hd)
      | asking e =>
        have he := e.goes_step (offer (lockAt w a.lock).keys a.token a.client.settings.ttl) w opens
        simp only [step, hp, if_neg hstop]
        generalize e.step (offer (lockAt w a.lock).keys a.token a.client.settings.ttl) w opens = r
          at he ⊢
        rcases r with ⟨w', e' | e' | ⟨n, err | b⟩⟩
        · exact .askWaits hp hc he
        · exact .askMoves hp hc he
        -- an attempt that ran out of time is a timeout of the whole acquisition
        · by_cases hne : err = .operationTimeout
          · subst hne
            exact .outOfTime hp hc he
          · cases err <;> first | exact .askFailed hp hc he hne | exact absurd rfl hne
        · cases b with
          | false => exact .takeNot hp hc he
          | true => exact .take hp hc he
      | resting till =>
        simp only [step, hp, if_neg hstop]
        cases hh : w.hasHappened till with
        | true => exact .wake hp hc hh
        | false => exact .rest hp hc hh

end Acquisition

/-! ## Releases -/

namespace Release

/-- One step of a release: the world and the step that come of it. -/
inductive Goes (w : World (Guarded S) C) (opens : Bool) (r : Release C) :
    World (Guarded S) C → Step (Release C) (Except (LockError Fault) Unit) → Prop
  | stop (h : opens = true ∨ r.phase = .entering) (hc : stopped w r.context = true) :
      Goes w opens r w (.ends (.error .canceled))
  | notHeld {err : LockError Fault} (hp : r.phase = .entering)
      (hc : stopped w r.context = false) (hh : (lockAt w r.lock).held = .error err) :
      Goes w opens r w (.ends (.error err))
  | enter {token : String} (hp : r.phase = .entering) (hc : stopped w r.context = false)
      (hh : (lockAt w r.lock).held = .ok token) :
      Goes w opens r w (.moves { r with
        phase := .asking token (.start r.client.client r.client.client.writeTimeout) })
  | askWaits {token : String} {e e' : Execution C} {w' : World (Guarded S) C}
      (hp : r.phase = .asking token e) (hc : opens = true → stopped w r.context = false)
      (he : e.Goes (dropping (lockAt w r.lock).keys token) w opens w' (.waits e')) :
      Goes w opens r w' (.waits { r with phase := .asking token e' })
  | askMoves {token : String} {e e' : Execution C} {w' : World (Guarded S) C}
      (hp : r.phase = .asking token e) (hc : opens = true → stopped w r.context = false)
      (he : e.Goes (dropping (lockAt w r.lock).keys token) w opens w' (.moves e')) :
      Goes w opens r w' (.moves { r with phase := .asking token e' })
  | leave {token : String} {e : Execution C} {w' : World (Guarded S) C} {n dropped : Nat}
      (hp : r.phase = .asking token e) (hc : opens = true → stopped w r.context = false)
      (he : e.Goes (dropping (lockAt w r.lock).keys token) w opens w'
        (.ends ⟨n, .ok dropped⟩)) :
      Goes w opens r (changeLock w' r.lock (Lock.leave · w'.now)) (.ends (.ok ()))
  | askFailed {token : String} {e : Execution C} {w' : World (Guarded S) C} {n : Nat}
      {err : CallError Fault} (hp : r.phase = .asking token e)
      (hc : opens = true → stopped w r.context = false)
      (he : e.Goes (dropping (lockAt w r.lock).keys token) w opens w' (.ends ⟨n, .error err⟩)) :
      Goes w opens r w' (.ends (.error (.client err)))

/-- A step of a release follows the rules. -/
theorem goes_step (w : World (Guarded S) C) (opens : Bool) (r : Release C) :
    Goes w opens r (r.step w opens).1 (r.step w opens).2 := by
  cases hp : r.phase with
  | entering =>
    simp only [step, hp]
    cases hc : stopped w r.context with
    | true => exact .stop (.inr hp) hc
    | false =>
      cases hh : (lockAt w r.lock).held with
      | error err => exact .notHeld hp hc hh
      | ok token => exact .enter hp hc hh
  | asking token e =>
    simp only [step, hp]
    by_cases hstop : (opens && stopped w r.context) = true
    · rw [if_pos hstop]
      rw [Bool.and_eq_true] at hstop
      exact .stop (.inl hstop.1) hstop.2
    · rw [if_neg hstop]
      have hc : opens = true → stopped w r.context = false := by
        intro ho
        simpa [ho] using hstop
      have he := e.goes_step (dropping (lockAt w r.lock).keys token) w opens
      generalize e.step (dropping (lockAt w r.lock).keys token) w opens = t at he ⊢
      rcases t with ⟨w', e' | e' | ⟨n, err | dropped⟩⟩
      · exact .askWaits hp hc he
      · exact .askMoves hp hc he
      · exact .askFailed hp hc he
      · exact .leave hp hc he

end Release

end Reconnect.Cache
