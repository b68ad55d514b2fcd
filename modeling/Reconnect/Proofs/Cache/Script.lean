import Reconnect.Cache.Script
import Reconnect.Proofs.Table

/-!
# What the scripts of locks do

The script that takes keys answers 0 and leaves the store as it is if one of them is there, and
otherwise writes under all of them (`KeyStore.acquire_eq`). The script that drops keys goes through
them one after the other, so that a key that comes twice is counted once (`KeyStore.release_eq`).
-/

namespace Reconnect.Cache

namespace KeyStore

theorem entry?_set (s : KeyStore) (now : Millis) (key value : String) (expiry : Millis)
    (other : String) :
    entry? (s.set key value expiry) now other =
      if other = key then (if now < expiry then some ⟨value, expiry⟩ else none)
      else s.entry? now other := by
  rw [set, entry?, Table.get?_insert]
  split
  · simp [Option.filter_some]
  · rfl

theorem entry?_delete (s : KeyStore) (now : Millis) (key other : String) :
    entry? (s.delete key) now other = if other = key then none else s.entry? now other := by
  rw [delete, entry?, Table.get?_erase]
  split <;> rfl

/-- Writes a token under some keys, to be gone at a time. -/
def setAll (s : KeyStore) (keys : List String) (token : String) (expiry : Millis) : KeyStore :=
  keys.foldl (·.set · token expiry) s

theorem entry?_setAll {now expiry : Millis} (he : now < expiry) (s : KeyStore)
    (keys : List String) (token key : String) :
    entry? (s.setAll keys token expiry) now key =
      if key ∈ keys then some ⟨token, expiry⟩ else s.entry? now key := by
  unfold setAll
  induction keys generalizing s with
  | nil => rfl
  | cons first rest ih =>
    rw [List.foldl_cons, ih, entry?_set, if_pos he]
    by_cases hr : key ∈ rest <;> by_cases hf : key = first <;> simp [hr, hf]

/-- Deletes a key that holds a token, and counts it. -/
def dropFrom (now : Millis) (token : String) (r : KeyStore × Nat) (key : String) :
    KeyStore × Nat :=
  if r.1.get? now key = some token then (r.1.delete key, r.2 + 1) else r

end KeyStore

namespace Script

variable {c : Call} {p : Progress}

theorem goOn_of_answered (h : p.answered.isSome = true) (f : Progress → Progress) :
    p.goOn f = p := by
  rw [Progress.goOn, if_pos h]

theorem goOn_of_none (h : p.answered = none) (f : Progress → Progress) : p.goOn f = f p := by
  rw [Progress.goOn, h]
  rfl

/-- A loop in a script that has ended does nothing. -/
theorem foldl_goOn_of_answered (h : p.answered.isSome = true) (f : String → Progress → Progress)
    (keys : List String) : keys.foldl (fun p key => p.goOn (f key)) p = p := by
  induction keys with
  | nil => rfl
  | cons key rest ih => rw [List.foldl_cons, goOn_of_answered h, ih]

/-- The first key that is there ends the script. -/
theorem foldl_check (h : p.answered = none) (keys : List String) :
    keys.foldl (fun p key => p.goOn (run c (.onlyIf .isPresent (.answer 0)) key)) p =
      if keys.any fun key => (p.store.entry? c.now key).isSome then { p with answered := some 0 }
      else p := by
  induction keys with
  | nil => rfl
  | cons key rest ih =>
    rw [List.foldl_cons, goOn_of_none h, run, isTrue, KeyStore.get?, Option.isSome_map,
      List.any_cons]
    cases (p.store.entry? c.now key).isSome with
    | true => exact foldl_goOn_of_answered rfl _ rest
    | false => exact ih

theorem foldl_write (h : p.answered = none) (keys : List String) :
    keys.foldl (fun p key => p.goOn (run c (.write 1 2) key)) p =
      { p with
        store := p.store.setAll keys (c.argument 1).toText
          (c.now + (c.argument 2).toAmount) } := by
  induction keys generalizing p with
  | nil => rfl
  | cons key rest ih =>
    rw [List.foldl_cons, goOn_of_none h]
    exact ih h

theorem foldl_drop (h : p.answered = none) (keys : List String) :
    keys.foldl
        (fun p key => p.goOn (run c (.onlyIf (.holds 1) (.andThen .delete .count)) key)) p =
      { p with
        store := (keys.foldl (KeyStore.dropFrom c.now (c.argument 1).toText)
          (p.store, p.counted)).1
        counted := (keys.foldl (KeyStore.dropFrom c.now (c.argument 1).toText)
          (p.store, p.counted)).2 } := by
  induction keys generalizing p with
  | nil => rfl
  | cons key rest ih =>
    rw [List.foldl_cons, goOn_of_none h, List.foldl_cons, KeyStore.dropFrom, run, isTrue]
    by_cases hk : p.store.get? c.now key = some (c.argument 1).toText
    · rw [if_pos (beq_iff_eq.2 hk), if_pos hk]
      -- deleting does not end the script, so the key is counted
      have hdrop : run c (.andThen .delete .count) key p =
          { p with store := p.store.delete key, counted := p.counted + 1 } :=
        goOn_of_none (p := { p with store := p.store.delete key }) h _
      rw [hdrop]
      exact ih h
    · rw [if_neg (mt beq_iff_eq.1 hk), if_neg hk]
      exact ih h

end Script

namespace KeyStore

variable (s : KeyStore) (now : Millis) (keys : List String) (token : String)

/-- Keys are taken all or none, for the lifetime that is asked for. -/
theorem acquire_eq (ttl : Millis) :
    s.acquire now keys token ttl =
      if keys.any fun key => (s.entry? now key).isSome then (s, false)
      else (s.setAll keys token (now + Script.lifetime ttl), true) := by
  let c : Script.Call := ⟨now, keys, [.text token, .amount (Script.lifetime ttl)]⟩
  have hcheck := Script.foldl_check (c := c) (p := { store := s }) rfl keys
  have hrun : Script.acquire.eval c s =
      if keys.any fun key => (s.entry? now key).isSome then (s, 0)
      else (s.setAll keys token (now + Script.lifetime ttl), 1) := by
    rw [Script.eval, Script.acquire, Script.run, Script.run, hcheck]
    split
    · rfl
    · rw [Script.goOn_of_none rfl, Script.run, Script.run, Script.foldl_write rfl]
      rfl
  rw [acquire, hrun]
  split <;> rfl

/-- The keys that hold a token are deleted one after the other. -/
theorem release_eq : s.release now keys token = keys.foldl (dropFrom now token) (s, 0) := by
  let c : Script.Call := ⟨now, keys, [.text token]⟩
  let r := keys.foldl (dropFrom now token) (s, 0)
  have hdrop := Script.foldl_drop (c := c) (p := { store := s }) rfl keys
  have hrun : Script.release.run c "" { store := s } =
      { store := r.1, counted := r.2, answered := some r.2 } := by
    rw [Script.release, Script.run, Script.goOn_of_none rfl, Script.run, Script.run]
    exact (congrArg (Script.Progress.goOn · _) hdrop).trans (Script.goOn_of_none rfl _)
  rw [release, Script.eval, hrun]
  rfl

end KeyStore

end Reconnect.Cache
