import Reconnect.Table

/-!
# Reading tables

How look-up relates to the entries, the keys and the values of a table.
-/

namespace Reconnect.Table

variable {κ α β : Type} [DecidableEq κ]

theorem find_map_snd (k : κ) (f : α → β) (es : List (κ × α)) :
    find k (es.map fun e => (e.1, f e.2)) = (find k es).map f := by
  induction es with
  | nil => rfl
  | cons e rest ih =>
    simp only [List.map_cons, find]
    split
    · rfl
    · exact ih

@[simp] theorem get?_mapValues (t : Table κ α) (f : α → β) (k : κ) :
    (t.mapValues f).get? k = (t.get? k).map f :=
  find_map_snd k f t.entries

theorem mem_of_find {k : κ} {a : α} {es : List (κ × α)} (h : find k es = some a) :
    (k, a) ∈ es := by
  induction es with
  | nil => cases h
  | cons e rest ih =>
    rw [find] at h
    split at h
    case isTrue hk =>
      cases h
      rw [← hk]
      exact List.mem_cons_self
    case isFalse => exact List.mem_cons_of_mem e (ih h)

/-- A value that is looked up is the value of an entry of its key. -/
theorem mem_entries_of_get? {t : Table κ α} {k : κ} {a : α} (h : t.get? k = some a) :
    (k, a) ∈ t.entries :=
  mem_of_find h

theorem mem_values_of_get? {t : Table κ α} {k : κ} {a : α} (h : t.get? k = some a) :
    a ∈ t.values :=
  List.mem_map_of_mem (mem_entries_of_get? h)

/-! ## Keys -/

section Keys

variable (t : Table κ α) {k : κ} {a b : α}

omit [DecidableEq κ] in
@[simp] theorem keys_mapValues (f : α → β) : (t.mapValues f).keys = t.keys := by
  simp [keys, mapValues, Function.comp_def]

@[simp] theorem keys_modify (k : κ) (f : α → α) : (t.modify k f).keys = t.keys := by
  simp only [keys, modify, List.map_map]
  apply List.map_congr_left
  intro e _
  simp only [Function.comp_apply]
  split <;> rfl

theorem keys_erase (k : κ) : (t.erase k).keys = t.keys.filter (· ≠ k) := by
  simp only [keys, erase, List.filter_map]
  congr 1
  apply List.filter_congr
  intro e _
  simp

theorem mem_keys_iff (k : κ) : k ∈ t.keys ↔ (t.get? k).isSome = true := by
  unfold keys get?
  induction t.entries with
  | nil => simp [find]
  | cons e rest ih =>
    rw [find, List.map_cons, List.mem_cons, ih]
    split
    case isTrue he => simp [he]
    case isFalse he => simp [Ne.symm he]

theorem put_of_find_eq_none {es : List (κ × α)} (h : find k es = none) :
    put k a es = es ++ [(k, a)] := by
  induction es with
  | nil => rfl
  | cons e rest ih =>
    rw [find] at h
    split at h
    case isTrue => cases h
    case isFalse hne => rw [put, if_neg hne, ih h, List.cons_append]

/-- A key without a value is written behind the others. -/
theorem entries_insert_of_get?_eq_none (h : t.get? k = none) :
    (t.insert k a).entries = t.entries ++ [(k, a)] :=
  put_of_find_eq_none h

theorem keys_put_of_find {es : List (κ × α)} (h : find k es = some b) :
    (put k a es).map Prod.fst = es.map Prod.fst := by
  induction es with
  | nil => cases h
  | cons e rest ih =>
    rw [find] at h
    rw [put]
    split
    case isTrue he => simp [he]
    case isFalse hne =>
      rw [if_neg hne] at h
      rw [List.map_cons, List.map_cons, ih h]

theorem keys_insert_of_get? (h : t.get? k = some b) : (t.insert k a).keys = t.keys :=
  keys_put_of_find h

/-- No key comes twice. -/
theorem nodup_keys_insert {t : Table κ α} (hn : t.keys.Nodup) : (t.insert k a).keys.Nodup := by
  cases h : t.get? k with
  | some b => rwa [keys_insert_of_get? t h]
  | none =>
    have hk : k ∉ t.keys := by
      rw [mem_keys_iff, h]
      exact nofun
    rw [keys, entries_insert_of_get?_eq_none t h, List.map_append, ← keys]
    refine List.nodup_append.2 ⟨hn, by simp, fun k' hk' k'' hk'' => ?_⟩
    rintro rfl
    rw [List.mem_singleton.1 hk''] at hk'
    exact hk hk'

theorem nodup_keys_foldl_insert {t : Table κ α} (hn : t.keys.Nodup) (ks : List κ) :
    (ks.foldl (·.insert · a) t).keys.Nodup := by
  induction ks generalizing t with
  | nil => exact hn
  | cons k rest ih => exact ih (nodup_keys_insert hn)

theorem perm_put_of_find {es : List (κ × α)} (h : find k es = some b) :
    (b :: (put k a es).map Prod.snd).Perm (a :: es.map Prod.snd) := by
  induction es with
  | nil => cases h
  | cons e rest ih =>
    rw [find] at h
    rw [put]
    split
    case isTrue he =>
      rw [if_pos he] at h
      cases h
      exact List.Perm.swap a e.2 _
    case isFalse hne =>
      rw [if_neg hne] at h
      exact (List.Perm.swap e.2 b _).trans (((ih h).cons e.2).trans (List.Perm.swap a e.2 _))

/-- A value that replaces another one takes its place. -/
theorem perm_values_insert (h : t.get? k = some b) :
    (b :: (t.insert k a).values).Perm (a :: t.values) :=
  perm_put_of_find h

theorem erase_of_get?_eq_none (h : t.get? k = none) : t.erase k = t := by
  have hall : ∀ e ∈ t.entries, e.1 ≠ k := by
    intro e he hk
    have hmem : k ∈ t.keys := hk ▸ List.mem_map_of_mem he
    rw [mem_keys_iff, h] at hmem
    cases hmem
  unfold erase
  rw [List.filter_eq_self.2]
  intro e he
  simp [hall e he]

theorem perm_erase_of_find {es : List (κ × α)} (hn : (es.map Prod.fst).Nodup)
    (h : find k es = some b) :
    (b :: (es.filter fun e => !decide (e.1 = k)).map Prod.snd).Perm (es.map Prod.snd) := by
  induction es with
  | nil => cases h
  | cons e rest ih =>
    rw [List.map_cons, List.nodup_cons] at hn
    rw [find] at h
    split at h
    case isTrue he =>
      cases h
      -- the key stands in no other entry
      have hrest : rest.filter (fun e => !decide (e.1 = k)) = rest := by
        rw [List.filter_eq_self]
        intro e' he'
        have hne : e'.1 ≠ k := fun hk => hn.1 (he ▸ hk ▸ List.mem_map_of_mem he')
        simp [hne]
      rw [List.filter_cons_of_neg (by simp [he]), hrest]
      exact List.Perm.refl _
    case isFalse hne =>
      rw [List.filter_cons_of_pos (by simp [hne])]
      exact (List.Perm.swap e.2 b _).trans ((ih hn.2 h).cons e.2)

/-- A key that is erased takes its value with it. -/
theorem perm_values_erase (hn : t.keys.Nodup) (h : t.get? k = some b) :
    (b :: (t.erase k).values).Perm t.values :=
  perm_erase_of_find hn h

theorem find_of_mem {es : List (κ × α)} (hn : (es.map Prod.fst).Nodup) (hm : (k, a) ∈ es) :
    find k es = some a := by
  induction es with
  | nil => cases hm
  | cons e rest ih =>
    rw [List.map_cons, List.nodup_cons] at hn
    rw [find]
    rcases List.mem_cons.1 hm with rfl | hm
    · rw [if_pos rfl]
    · rw [if_neg, ih hn.2 hm]
      rintro rfl
      exact hn.1 (List.mem_map.2 ⟨_, hm, rfl⟩)

theorem get?_of_mem_entries (hn : t.keys.Nodup) (hm : (k, a) ∈ t.entries) :
    t.get? k = some a :=
  find_of_mem hn hm

/-- An entry after a key was written is the one that was written or was there before. -/
theorem eq_or_mem_of_mem_put {e : κ × α} {es : List (κ × α)} (h : e ∈ put k a es) :
    e = (k, a) ∨ e ∈ es := by
  induction es with
  | nil => exact .inl (List.mem_singleton.1 h)
  | cons e' rest ih =>
    rw [put] at h
    split at h
    · exact (List.mem_cons.1 h).imp_right (List.mem_cons_of_mem e')
    · rcases List.mem_cons.1 h with rfl | h
      · exact .inr List.mem_cons_self
      · exact (ih h).imp_right (List.mem_cons_of_mem e')

/-- The same after some keys were written. -/
theorem mem_of_mem_foldl_insert {e : κ × α} {t : Table κ α} {ks : List κ}
    (h : e ∈ (ks.foldl (·.insert · a) t).entries) : e.1 ∈ ks ∧ e.2 = a ∨ e ∈ t.entries := by
  induction ks generalizing t with
  | nil => exact .inr h
  | cons k rest ih =>
    rcases ih h with ⟨hk, ha⟩ | h
    · exact .inl ⟨List.mem_cons_of_mem k hk, ha⟩
    · rcases eq_or_mem_of_mem_put h with rfl | h
      · exact .inl ⟨List.mem_cons_self, rfl⟩
      · exact .inr h

theorem entries_erase_subset : (t.erase k).entries ⊆ t.entries := List.filter_sublist.subset

end Keys

/-! ## The number of entries -/

section Size

variable (t : Table κ α) (k : κ)

theorem length_put_le (a : α) (es : List (κ × α)) : (put k a es).length ≤ es.length + 1 := by
  induction es with
  | nil => exact Nat.le_refl 1
  | cons e rest ih =>
    rw [put]
    split
    · exact Nat.le_succ _
    · exact Nat.succ_le_succ ih

theorem size_insert_le (a : α) : (t.insert k a).size ≤ t.size + 1 := length_put_le k a t.entries

/-- Erasing a key that has a value leaves fewer entries. -/
theorem size_erase_lt {t : Table κ α} {k : κ} {a : α} (h : t.get? k = some a) :
    (t.erase k).size < t.size := by
  refine List.length_filter_lt_length_iff_exists.2 ⟨(k, a), mem_entries_of_get? h, ?_⟩
  simp

end Size

/-! ## Entries that satisfy a predicate -/

section Filter

variable (t : Table κ α) {p q : κ → α → Bool} {k k' : κ} {a : α}

omit [DecidableEq κ] in
@[simp] theorem filter_filter_self (p : κ → α → Bool) : (t.filter p).filter p = t.filter p := by
  simp [filter]

theorem find_filter_put_self (hp : p k a = true) (es : List (κ × α)) :
    find k ((put k a es).filter fun e => p e.1 e.2) = some a := by
  induction es with
  | nil => simp [put, find, hp]
  | cons e rest ih => grind [put, find]

theorem find_filter_put_of_ne (hne : k' ≠ k) (es : List (κ × α)) :
    find k' ((put k a es).filter fun e => p e.1 e.2) = find k' (es.filter fun e => p e.1 e.2) := by
  induction es with
  | nil => grind [put, find]
  | cons e rest ih => grind [put, find]

/-- A value written under some keys is the value of all of them. -/
theorem get?_foldl_insert (ks : List κ) :
    (ks.foldl (·.insert · a) t).get? k = if k ∈ ks then some a else t.get? k := by
  induction ks generalizing t with
  | nil => rfl
  | cons k' rest ih =>
    rw [List.foldl_cons, ih, get?_insert]
    by_cases hk : k = k' <;> by_cases hr : k ∈ rest <;> simp [hk, hr]

theorem get?_filter_foldl_insert (hp : ∀ k, p k a = true) (ks : List κ) :
    ((ks.foldl (·.insert · a) t).filter p).get? k =
      if k ∈ ks then some a else (t.filter p).get? k := by
  induction ks generalizing t with
  | nil => rfl
  | cons k' rest ih =>
    rw [List.foldl_cons, ih]
    by_cases hr : k ∈ rest
    · simp [hr]
    · by_cases hk : k = k'
      · subst hk
        rw [if_neg hr, if_pos List.mem_cons_self]
        exact find_filter_put_self (hp k) t.entries
      · rw [if_neg hr, if_neg (by simp [hk, hr])]
        exact find_filter_put_of_ne hk t.entries

theorem get?_filter_foldl_insert_of_notMem {ks : List κ} (h : k ∉ ks) :
    ((ks.foldl (·.insert · a) t).filter p).get? k = (t.filter p).get? k := by
  induction ks generalizing t with
  | nil => rfl
  | cons k' rest ih =>
    rw [List.mem_cons, not_or] at h
    rw [List.foldl_cons, ih _ h.2]
    exact find_filter_put_of_ne h.1 t.entries

theorem find_filter_of_imp (hqp : ∀ a, q k a = true → p k a = true) (hq : q k a = true)
    {es : List (κ × α)} (h : find k (es.filter fun e => p e.1 e.2) = some a) :
    find k (es.filter fun e => q e.1 e.2) = some a := by
  induction es with
  | nil => exact h
  | cons e rest ih => grind [find]

/-- The value of a key among the entries that satisfy a predicate is its value among those that
satisfy a stronger one too, if it satisfies that. -/
theorem get?_filter_of_imp {t : Table κ α} (hqp : ∀ a, q k a = true → p k a = true)
    (hq : q k a = true) (h : (t.filter p).get? k = some a) : (t.filter q).get? k = some a :=
  find_filter_of_imp hqp hq h

theorem find_filter_of_nodup {es : List (κ × α)} (hn : (es.map Prod.fst).Nodup) (k : κ) :
    find k (es.filter fun e => p e.1 e.2) = (find k es).filter (p k) := by
  induction es with
  | nil => rfl
  | cons e rest ih =>
    rw [List.map_cons, List.nodup_cons] at hn
    by_cases he : e.1 = k
    · -- the other entries are of other keys
      have hnone : find k rest = none := by
        cases h : find k rest with
        | none => rfl
        | some a => exact absurd (List.mem_map.2 ⟨_, mem_of_find h, he.symm⟩) hn.1
      have hrest : find k (rest.filter fun e => p e.1 e.2) = none := by
        rw [ih hn.2, hnone]
        rfl
      rw [find, if_pos he, ← he, Option.filter_some, List.filter_cons]
      split
      · rw [find, if_pos rfl]
      · rw [he, hrest]
    · rw [find, if_neg he, ← ih hn.2, List.filter_cons]
      split
      · rw [find, if_neg he]
      · rfl

/-- Where no key comes twice, the value of a key among the entries that satisfy a predicate is its
value if that does. -/
theorem get?_filter_of_nodup (hn : t.keys.Nodup) (p : κ → α → Bool) (k : κ) :
    (t.filter p).get? k = (t.get? k).filter (p k) :=
  find_filter_of_nodup hn k

omit [DecidableEq κ] in
theorem nodup_keys_filter {t : Table κ α} (hn : t.keys.Nodup) (p : κ → α → Bool) :
    (t.filter p).keys.Nodup :=
  hn.sublist (List.filter_sublist.map Prod.fst)

theorem filter_erase (p : κ → α → Bool) (k : κ) :
    (t.erase k).filter p = (t.filter p).erase k := by
  simp only [filter, erase, List.filter_filter, Bool.and_comm]

end Filter

end Reconnect.Table
