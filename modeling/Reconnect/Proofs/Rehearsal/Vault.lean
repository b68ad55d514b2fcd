import Reconnect.Proofs.Table
import Reconnect.Rehearsal.Vault

/-!
# What a store of locks does

What a key holds after an offer of a token and after a token was dropped. An offer is all or
nothing: it gives every key the same token and the same time, or leaves what all keys hold as it is
(`Vault.offered`).
-/

namespace Reconnect.Rehearsal

open Cache

namespace Vault

variable (v : Vault) (keys : List String) (token : String) (ttl : Millis)

/-- What a key holds. -/
def held? (key : String) : Option VaultEntry := v.live.get? key

theorem filter_live : (v.live.filter fun _ e => v.network.wall < e.expiry) = v.live :=
  Table.filter_filter_self v.entries fun _ e => v.network.wall < e.expiry

theorem any_contains_live :
    keys.any v.live.contains = true ↔ ∃ key ∈ keys, (v.held? key).isSome = true :=
  List.any_eq_true

/-- An entry stays until its time is up. -/
theorem held?_of_le {v v' : Vault} (he : v'.entries = v.entries)
    (hw : v.network.wall ≤ v'.network.wall) {key : String} {e : VaultEntry}
    (h : v.held? key = some e) (hl : v'.network.wall < e.expiry) : v'.held? key = some e := by
  unfold held? live at h ⊢
  rw [he]
  refine Table.get?_filter_of_imp (fun e' hl' => ?_) (decide_eq_true hl) h
  exact decide_eq_true (Nat.lt_of_le_of_lt hw (of_decide_eq_true hl'))

theorem entries_live_subset : v.live.entries ⊆ v.entries.entries := List.filter_sublist.subset

theorem mem_entries_of_held? {key : String} {e : VaultEntry} (h : v.held? key = some e) :
    (key, e) ∈ v.entries.entries :=
  v.entries_live_subset (Table.mem_entries_of_get? h)

/-! ## Offers -/

theorem acquire_of_taken {keys : List String} (h : ∃ key ∈ keys, (v.held? key).isSome = true) :
    v.acquire keys token ttl = ({ v with entries := v.live }, false) := by
  rw [acquire, if_pos ((v.any_contains_live keys).2 h)]

theorem acquire_of_free {keys : List String} (h : ∀ key ∈ keys, v.held? key = none) :
    v.acquire keys token ttl =
      ({ v with
        entries := keys.foldl (·.insert · ⟨token, v.network.wall + ttl⟩) v.live }, true) := by
  rw [acquire, if_neg]
  rw [any_contains_live]
  rintro ⟨key, hk, hs⟩
  rw [h key hk] at hs
  cases hs

/-- An entry after an offer was written by it or was there before. -/
theorem mem_entries_acquire {key : String} {e : VaultEntry}
    (h : (key, e) ∈ (v.acquire keys token ttl).1.entries.entries) :
    key ∈ keys ∧ e = ⟨token, v.network.wall + ttl⟩ ∨ (key, e) ∈ v.entries.entries := by
  unfold acquire at h
  dsimp only at h
  split at h
  · exact .inr (v.entries_live_subset h)
  · exact (Table.mem_of_mem_foldl_insert h).imp_right (v.entries_live_subset ·)

/-- A request to have a token written fails and changes nothing, or the token is offered. -/
theorem keeper_acquire_cases :
    (∃ f, Keeper.acquire v () keys token ttl = (v, .error f)) ∨
      Keeper.acquire v () keys token ttl =
        ((v.acquire keys token ttl).1, .ok (v.acquire keys token ttl).2) := by
  change (∃ f, v.request (v.acquire keys token ttl) = (v, .error f)) ∨
    v.request (v.acquire keys token ttl) =
      ((v.acquire keys token ttl).1, .ok (v.acquire keys token ttl).2)
  rw [request]
  split
  case h_1 f hf => exact .inl ⟨f, rfl⟩
  case h_2 => exact .inr rfl

/-- What an offer of a token to a store can come to: the store after it, and the answer. -/
inductive Offered : Vault → Except Fault Bool → Prop
  | granted {v' : Vault} (hf : ∀ key ∈ keys, v.held? key = none) (hn : v'.network = v.network)
      (he : ∀ key, v'.entries.get? key =
        if key ∈ keys then some ⟨token, v.network.wall + ttl⟩ else v.held? key)
      (hl : 0 < ttl → ∀ key ∈ keys, v'.held? key = some ⟨token, v.network.wall + ttl⟩)
      (ho : ∀ key, key ∉ keys → v'.held? key = v.held? key) : Offered v' (.ok true)
  | taken (ht : ∃ key ∈ keys, (v.held? key).isSome = true) :
      Offered { v with entries := v.live } (.ok false)
  | failed {f : Fault} (hf : v.network.fault? = some f) : Offered v (.error f)

/-- An offer of a token is all or nothing. -/
theorem offered :
    v.Offered keys token ttl (Keeper.acquire v () keys token ttl).1
      (Keeper.acquire v () keys token ttl).2 := by
  change v.Offered keys token ttl (v.request (v.acquire keys token ttl)).1
    (v.request (v.acquire keys token ttl)).2
  rw [request]
  split
  case h_1 f hf => exact .failed hf
  case h_2 =>
    by_cases ht : ∃ key ∈ keys, (v.held? key).isSome = true
    · rw [acquire_of_taken v token ttl ht]
      exact .taken ht
    · have hf : ∀ key ∈ keys, v.held? key = none := by
        intro key hk
        rw [← Option.not_isSome_iff_eq_none]
        exact fun hs => ht ⟨key, hk, hs⟩
      rw [acquire_of_free v token ttl hf]
      refine .granted hf rfl (fun key => Table.get?_foldl_insert v.live keys) ?_ ?_
      · intro httl key hk
        have hnow : ∀ _ : String, decide (v.network.wall < v.network.wall + ttl) = true := by
          intro _
          exact decide_eq_true (Nat.lt_add_of_pos_right httl)
        exact (Table.get?_filter_foldl_insert v.live
          (p := fun _ e => v.network.wall < e.expiry) hnow keys).trans (if_pos hk)
      · intro key hk
        refine (Table.get?_filter_foldl_insert_of_notMem v.live hk).trans ?_
        exact congrArg (Table.get? · key) v.filter_live

/-! ## Drops -/

/-- Drops a token from a table of entries, key by key, and counts the keys. -/
def dropFrom (r : Table String VaultEntry × Nat) (key : String) :
    Table String VaultEntry × Nat :=
  if (r.1.get? key).any (·.token == token) then (r.1.erase key, r.2 + 1) else r

theorem get?_foldl_dropFrom (r : Table String VaultEntry × Nat) (key : String) :
    (keys.foldl (dropFrom token) r).1.get? key =
      if key ∈ keys ∧ (r.1.get? key).any (·.token == token) = true then none
      else r.1.get? key := by
  induction keys generalizing r with
  | nil => simp
  | cons k rest ih =>
    rw [List.foldl_cons, ih, dropFrom]
    by_cases hk : key = k
    · subst hk
      split <;> simp_all
    · split <;> simp [hk]

theorem filter_foldl_dropFrom {p : String → VaultEntry → Bool}
    {r : Table String VaultEntry × Nat} (h : r.1.filter p = r.1) :
    (keys.foldl (dropFrom token) r).1.filter p = (keys.foldl (dropFrom token) r).1 := by
  induction keys generalizing r with
  | nil => exact h
  | cons k rest ih =>
    apply ih
    rw [dropFrom]
    split
    · rw [Table.filter_erase, h]
    · exact h

theorem entries_foldl_dropFrom_subset (r : Table String VaultEntry × Nat) :
    (keys.foldl (dropFrom token) r).1.entries ⊆ r.1.entries := by
  induction keys generalizing r with
  | nil => exact List.Subset.refl _
  | cons k rest ih =>
    refine List.Subset.trans (ih _) ?_
    rw [dropFrom]
    split
    · exact Table.entries_erase_subset r.1
    · exact List.Subset.refl _

theorem entries_release_subset :
    (v.release keys token).1.entries.entries ⊆ v.entries.entries :=
  List.Subset.trans (entries_foldl_dropFrom_subset keys token (v.live, 0)) v.entries_live_subset

/-- A drop of a token counts the keys that hold it, and one that is listed twice only once. -/
theorem snd_foldl_dropFrom (r : Table String VaultEntry × Nat) :
    (keys.foldl (dropFrom token) r).2 =
      r.2 + (keys.filter fun key => (r.1.get? key).any (·.token == token)).eraseDups.length := by
  induction keys generalizing r with
  | nil => rfl
  | cons k rest ih =>
    rw [List.foldl_cons, ih, dropFrom]
    split
    case isTrue hk =>
      -- the key holds nothing any more, so it is not counted again
      have hrest : rest.filter (fun key => ((r.1.erase k).get? key).any (·.token == token)) =
          (rest.filter fun key => (r.1.get? key).any (·.token == token)).filter (!· == k) := by
        rw [List.filter_filter]
        apply List.filter_congr
        intro key _
        by_cases he : key = k <;> simp [he]
      rw [List.filter_cons, if_pos hk, List.eraseDups_cons, List.length_cons, hrest]
      omega
    case isFalse hk => rw [List.filter_cons, if_neg hk]

theorem snd_release :
    (v.release keys token).2 =
      (keys.filter fun key => (v.held? key).any (·.token == token)).eraseDups.length := by
  have h := snd_foldl_dropFrom keys token (v.live, 0)
  rw [Nat.zero_add] at h
  exact h

/-- A drop of a token leaves what the keys hold that do not hold this token. -/
theorem held?_release (key : String) :
    (v.release keys token).1.held? key =
      if key ∈ keys ∧ (v.held? key).any (·.token == token) = true then none
      else v.held? key := by
  have hlive : (v.release keys token).1.live = (keys.foldl (dropFrom token) (v.live, 0)).1 :=
    filter_foldl_dropFrom keys token (r := (v.live, 0)) v.filter_live
  rw [held?, hlive]
  exact get?_foldl_dropFrom keys token (v.live, 0) key

/-- A key that holds another token than the one that is dropped keeps it. -/
theorem held?_release_of_ne {key : String} {e : VaultEntry} (he : v.held? key = some e)
    (ht : e.token ≠ token) : (v.release keys token).1.held? key = some e := by
  rw [held?_release, he, if_neg]
  simp [ht]

/-- A request to drop a token fails and changes nothing, or the token is dropped. -/
theorem keeper_release_cases :
    (∃ f, Keeper.release v () keys token = (v, .error f)) ∨
      Keeper.release v () keys token =
        ((v.release keys token).1, .ok (v.release keys token).2) := by
  change (∃ f, v.request (v.release keys token) = (v, .error f)) ∨
    v.request (v.release keys token) = ((v.release keys token).1, .ok (v.release keys token).2)
  rw [request]
  split
  case h_1 f hf => exact .inl ⟨f, rfl⟩
  case h_2 => exact .inr rfl

end Vault

end Reconnect.Rehearsal
