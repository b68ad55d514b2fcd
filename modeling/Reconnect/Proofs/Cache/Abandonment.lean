import Reconnect.Proofs.Cache.Usage
import Reconnect.Proofs.Rehearsal.Tenancy

/-!
# Acquisitions that are dropped

An acquisition marks its lock while it is under way. Should it be dropped, nothing takes the mark
back: a lock is marked exactly while an acquisition of it is under way, or since one was dropped
that had begun (`abandoned_run`). The mark is all that is left of such an acquisition; but it keeps
out every later one, however free the keys are. `refused_after_drop` is a case of this: an
acquisition is dropped while it waits for a key, which is given back afterwards.
-/

namespace Reconnect.Cache.Usage

variable {S C : Type} [Site S C] [Keeper S C] {lock : Nat} {y : Usage S C} {l : Lock}

theorem mem_dropped_step {caller : Caller C} (h : caller ∈ y.dropped) (m : Move S C lock) :
    caller ∈ (y.step lock m).dropped := by
  cases m with
  | acquire | release | drift => exact h
  | drop place => exact List.mem_append_right _ h
  | go place opens =>
    rw [step]
    split <;> exact h

/-- Calls that have been dropped stay so. -/
theorem mem_dropped_run {caller : Caller C} (h : caller ∈ y.dropped)
    (moves : List (Move S C lock)) : caller ∈ (y.run lock moves).dropped := by
  induction moves generalizing y with
  | nil => exact h
  | cons m moves ih => exact ih (mem_dropped_step h m)

/-- What is left in a lock of the calls that were dropped. -/
structure Abandoned (lock : Nat) (y : Usage S C) : Prop where
  /-- The lock is marked while an acquisition is under way, or since one was dropped. -/
  marked_iff : (lockAt y.world lock).acquiring = true ↔
    ∃ caller ∈ y.callers ++ y.dropped, caller.isUnderway = true
  /-- No step of a call that was dropped has changed more of the lock than its mark. -/
  traceless : ∀ caller ∈ y.dropped, ∀ s ∈ caller.steps, s.2.giveUp = s.1.giveUp
  /-- A lock that is free and was never left with its mark lets an acquisition in. -/
  begins : (∀ caller ∈ y.callers ++ y.dropped, caller.isUnderway = false) →
    (lockAt y.world lock).locked = false → ∀ client context opens,
      stopped y.world context = false → ∃ w a,
        LockCall.step y.world opens (.acquire { client, context, lock }) =
          (w, .moves (.acquire a)) ∧ a.phase = .trying
  /-- A lock that was left with its mark is free for ever, and lets no acquisition in. -/
  keepsOut : (∃ caller ∈ y.dropped, caller.isUnderway = true) → ∀ moves client context opens,
    (lockAt (y.run lock moves).world lock).locked = false ∧
      LockCall.step (y.run lock moves).world opens (.acquire { client, context, lock }) =
        ((y.run lock moves).world, .ends (.error .locksAlreadyAcquired))

theorem Sound.begins (h : y.Sound lock l) (hi : l.isIdle = true) (client : LockClient)
    {context : Option String} (hc : stopped y.world context = false) (opens : Bool) :
    ∃ w a, LockCall.step y.world opens (.acquire { client, context, lock }) =
      (w, .moves (.acquire a)) ∧ a.phase = .trying := by
  have hsame : stopped (changeLock y.world.draw.1 lock Lock.begin) context =
      stopped y.world context := rfl
  refine ⟨changeLock y.world.draw.1 lock Lock.begin,
    { client, context, lock
      token := y.world.draw.2.text
      deadline := y.world.now + client.settings.acquireTimeout
      phase := .trying }, ?_, rfl⟩
  rw [LockCall.step, Acquisition.step]
  simp only [h.lockAt_eq, hi, hsame, hc]
  rfl

/-- Whatever calls are dropped at whatever moment, they leave nothing in a lock but its mark, and
this is all that keeps later acquisitions out. -/
theorem abandoned_run (w : World (Guarded S) C) (resources : List String)
    (moves : List (Move S C w.site.locks.length)) :
    ((start w resources).run w.site.locks.length moves).Abandoned w.site.locks.length := by
  obtain ⟨l, h⟩ := sound_run w resources moves
  generalize (start w resources).run w.site.locks.length moves = y at h ⊢
  have hat := h.lockAt_eq
  refine ⟨?_, ?_, ?_, ?_⟩
  · rw [hat]
    exact h.acquiring_iff
  · intro caller hm
    exact (h.fit caller (List.mem_append_right _ hm)).traceless
  · intro hnone hl client context opens hc
    refine h.begins ?_ client hc opens
    have hfree : l.acquiring = false := by
      rw [← Bool.not_eq_true, h.acquiring_iff]
      rintro ⟨caller, hm, hu⟩
      rw [hnone caller hm] at hu
      cases hu
    rw [Lock.isIdle, ← hat, hl, hat, hfree]
    rfl
  · rintro ⟨caller, hm, hu⟩ moves client context opens
    obtain ⟨l', h'⟩ := h.run moves
    have hmarked : l'.acquiring = true :=
      h'.acquiring_iff.2 ⟨caller, List.mem_append_right _ (mem_dropped_run hm moves), hu⟩
    refine ⟨?_, h'.acquire_refused ?_ client context opens⟩
    · rw [h'.lockAt_eq]
      exact h'.proper.free hmarked
    · rw [Lock.isIdle, hmarked, Bool.not_true, Bool.and_false]

section Vault

open Rehearsal Rehearsal.Tenancy

/-- A stranger takes a key. An acquisition of a lock over it begins, and is dropped while it waits
for its next attempt. Then the stranger gives the key back. -/
def dropAmid : List (Move Vault Unit soleWorld.site.locks.length) :=
  [.drift (fun w => withStore w (w.site.store.acquire [lockKey "a"] "other" 1000).1) fun _ => rfl,
    .acquire soleClient none] ++ List.replicate 5 (.go 0 true) ++
  [.drop 0,
    .drift (fun w => withStore w (w.site.store.release [lockKey "a"] "other").1) fun _ => rfl]

/-- The key is free, and no call on the lock is left; but the next acquisition is refused. -/
theorem refused_after_drop :
    let y := (start soleWorld ["a"]).run _ dropAmid
    y.callers = [] ∧ y.world.site.store.value? (lockKey "a") = none ∧
      (lockAt y.world 0).locked = false ∧ (lockAt y.world 0).acquiring = true ∧
      (y.run 0 [.acquire soleClient none, .go 0 true]).results =
        [.error .locksAlreadyAcquired] := by
  decide +kernel

end Vault

end Reconnect.Cache.Usage
